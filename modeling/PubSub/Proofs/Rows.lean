import Mathlib.Data.List.Nodup
import PubSub.Database

/-!
# Rows after writes

What the look-ups find after each write. A database is well-formed if all its
tables are there and every subscription has the code of a state; no write
breaks that.
-/

namespace PubSub

theorem State.code_injective : Function.Injective State.code := by
  intro s t h
  have hs := State.ofCode?_code s
  rw [h, State.ofCode?_code t] at hs
  exact (Option.some.inj hs).symm

namespace Database

/-! ## States -/

/-- The state of a topic. One without a row counts as unsubscribed. -/
def stateOf (db : Database) (topic : String) : State :=
  match db.subscription? topic with
  | some row => (State.ofCode? row.code).getD .unsubscribed
  | none => .unsubscribed

def requestOf (db : Database) (topic : String) : Option String :=
  (db.subscription? topic).bind (·.requestId)

structure WellFormed (db : Database) : Prop where
  tables : db.hasAll = true
  codes : ∀ row ∈ db.subscriptions, ∃ state : State, row.code = state.code

theorem wellFormed_fresh : fresh.WellFormed := ⟨rfl, fun _ h => by cases h⟩

theorem WellFormed.has {db : Database} (h : db.WellFormed) (table : Table) :
    db.has table = true := by
  have := List.all_eq_true.mp h.tables table
  cases table <;> exact this (by decide)

theorem hasAll_congr {db db' : Database} (h : db'.tables = db.tables) : db'.hasAll = db.hasAll := by
  unfold hasAll has
  rw [h]

theorem stateOf_congr {db db' : Database} (h : db'.subscriptions = db.subscriptions)
    (topic : String) : db'.stateOf topic = db.stateOf topic := by
  simp only [stateOf, subscription?, h]

theorem topic?_congr {db db' : Database} (h : db'.topics = db.topics) (topic : String) :
    db'.topic? topic = db.topic? topic := by
  simp only [topic?, h]

theorem wellFormed_run {w : Write} {db db' : Database} {rows : Nat}
    (hrun : w.run db = .ok (rows, db')) (h : db.WellFormed) : db'.WellFormed := by
  have hcopy : ∀ db'' : Database, db''.tables = db.tables → db''.subscriptions = db.subscriptions →
      db''.WellFormed := fun db'' ht hs => ⟨(hasAll_congr ht).trans h.tables, hs ▸ h.codes⟩
  have hdrop : ∀ p : SubscriptionRow → Bool,
      ({ db with subscriptions := db.subscriptions.filter p } : Database).WellFormed := fun p =>
    ⟨h.tables, fun row hr => h.codes row (List.mem_filter.mp hr).1⟩
  cases w with
  | putTopic row =>
    cases hrun
    exact hcopy _ rfl rfl
  | dropTopic topic =>
    cases hrun
    exact hcopy _ rfl rfl
  | setNotification topic code =>
    cases hrun
    exact hcopy _ rfl rfl
  | addMember new =>
    simp only [Write.run, addMember] at hrun
    split at hrun
    · cases hrun
    · split at hrun <;> cases hrun <;> exact hcopy _ rfl rfl
  | dropMember topic subscriber =>
    cases hrun
    exact hcopy _ rfl rfl
  | dropMembers topic =>
    cases hrun
    exact hcopy _ rfl rfl
  | putSubscription topic state requestId =>
    cases hrun
    refine ⟨h.tables, fun row hr => ?_⟩
    simp only [putSubscription, List.mem_append, List.mem_singleton] at hr
    rcases hr with hr | rfl
    · exact h.codes row (List.mem_filter.mp hr).1
    · exact ⟨state, rfl⟩
  | setState topic state =>
    cases hrun
    refine ⟨h.tables, fun row hr => ?_⟩
    obtain ⟨row', hr', rfl⟩ := List.mem_map.mp hr
    split
    · exact ⟨state, rfl⟩
    · exact h.codes row' hr'
  | dropSubscription topic =>
    cases hrun
    exact hdrop _
  | dropInState state =>
    cases hrun
    exact hdrop _

theorem WellFormed.setState {db : Database} (h : db.WellFormed) (topic : String) (state : State) :
    (db.setState topic state).2.WellFormed :=
  wellFormed_run (w := .setState topic state) rfl h

/-! ## Rows that are put last -/

theorem find?_filter_ne {α : Type} (key : α → String) (l : List α) (c k : String) :
    (l.filter (key · ≠ c)).find? (key · = k) = if k = c then none else l.find? (key · = k) := by
  rw [List.find?_filter]
  split
  · rename_i h
    subst h
    rw [List.find?_eq_none]
    intro a _
    simp
  · rename_i h
    congr 1
    funext a
    by_cases ha : key a = k
    · simp [ha, h]
    · simp [ha]

theorem find?_put {α : Type} (key : α → String) (l : List α) (a : α) (k : String) :
    (l.filter (key · ≠ key a) ++ [a]).find? (key · = k) =
      if k = key a then some a else l.find? (key · = k) := by
  rw [List.find?_append, find?_filter_ne]
  by_cases hk : k = key a
  · simp [hk]
  · simp [hk, Ne.symm hk]

theorem topic?_putTopic (db : Database) (row : TopicRow) (topic : String) :
    (db.putTopic row).topic? topic = if topic = row.topic then some row else db.topic? topic :=
  find?_put TopicRow.topic db.topics row topic

theorem subscription?_putSubscription (db : Database) (row : SubscriptionRow) (topic : String) :
    (db.putSubscription row).subscription? topic =
      if topic = row.topic then some row else db.subscription? topic :=
  find?_put SubscriptionRow.topic db.subscriptions row topic

theorem stateOf_putSubscription (db : Database) (topic : String) (state : State)
    (requestId : Option String) (t : String) :
    (db.putSubscription ⟨topic, state.code, requestId⟩).stateOf t =
      if t = topic then state else db.stateOf t := by
  unfold stateOf
  rw [subscription?_putSubscription]
  by_cases h : t = topic
  · simp [h, State.ofCode?_code]
  · simp [h]

/-! ## Rows that keep their place -/

theorem find?_map_key {α : Type} (key : α → String) (f : α → α) (hf : ∀ a, key (f a) = key a)
    (l : List α) (k : String) : (l.map f).find? (key · = k) = (l.find? (key · = k)).map f := by
  rw [List.find?_map]
  congr 2
  funext a
  simp [hf]

theorem subscription?_setState (db : Database) (topic : String) (state : State) (t : String) :
    (db.setState topic state).2.subscription? t =
      (db.subscription? t).map fun row =>
        if t = topic then { row with code := state.code } else row := by
  have hm := find?_map_key SubscriptionRow.topic
    (fun row => if row.topic = topic then { row with code := state.code } else row)
    (fun row => by split <;> rfl) db.subscriptions t
  refine hm.trans ?_
  cases h : db.subscriptions.find? (·.topic = t) with
  | none => simp [subscription?, h]
  | some row =>
    have ht : row.topic = t := by simpa using List.find?_some h
    simp [subscription?, h, ht]

theorem stateOf_setState {db : Database} {topic : String} (h : (db.subscription? topic).isSome)
    (state : State) (t : String) :
    (db.setState topic state).2.stateOf t = if t = topic then state else db.stateOf t := by
  unfold stateOf
  rw [subscription?_setState]
  by_cases ht : t = topic
  · subst ht
    obtain ⟨row, hr⟩ := Option.isSome_iff_exists.mp h
    simp [hr, State.ofCode?_code]
  · cases db.subscription? t <;> simp [ht]

theorem subscription?_isSome_of_stateOf {db : Database} {topic : String}
    (h : db.stateOf topic ≠ .unsubscribed) : (db.subscription? topic).isSome := by
  unfold stateOf at h
  cases hs : db.subscription? topic with
  | none => simp [hs] at h
  | some row => rfl

/-- What is pending has a record, so that it can be resolved. -/
theorem stateOf_resolve {db : Database} {topic : String} {resolution : Resolution}
    (hr : (db.stateOf topic).resolution? = some resolution) (state : State) (t : String) :
    (db.setState topic state).2.stateOf t = if t = topic then state else db.stateOf t := by
  refine stateOf_setState (subscription?_isSome_of_stateOf fun hu => ?_) state t
  rw [hu] at hr
  cases hr

/-! ## Rows that are the only ones -/

theorem eq_of_nodup_filterMap {α β : Type} {f : α → Option β} {l : List α}
    (h : (l.filterMap f).Nodup) {a a' : α} {b : β} (ha : a ∈ l) (ha' : a' ∈ l) (hb : f a = some b)
    (hb' : f a' = some b) : a = a' := by
  induction l with
  | nil => cases ha
  | cons x l ih =>
    rw [List.filterMap_cons] at h
    have hmem : ∀ y ∈ l, f y = some b → b ∈ l.filterMap f := fun y hy hf =>
      List.mem_filterMap.mpr ⟨y, hy, hf⟩
    rcases List.mem_cons.mp ha with rfl | ha1 <;> rcases List.mem_cons.mp ha' with rfl | ha2
    · rfl
    · rw [hb] at h
      exact absurd (hmem a' ha2 hb') (List.nodup_cons.mp h).1
    · rw [hb'] at h
      exact absurd (hmem a ha1 hb) (List.nodup_cons.mp h).1
    · refine ih ?_ ha1 ha2
      cases hx : f x with
      | none => simpa [hx] using h
      | some c =>
        rw [hx] at h
        exact (List.nodup_cons.mp h).2

structure Distinct (db : Database) : Prop where
  topics : (db.subscriptions.map (·.topic)).Nodup
  requests : (db.subscriptions.filterMap (·.requestId)).Nodup

theorem subscription?_of_mem {db : Database} (h : (db.subscriptions.map (·.topic)).Nodup)
    {row : SubscriptionRow} (hr : row ∈ db.subscriptions) :
    db.subscription? row.topic = some row := by
  have hs : (db.subscription? row.topic).isSome := by
    unfold Database.subscription?
    rw [List.find?_isSome]
    exact ⟨row, hr, by simp⟩
  obtain ⟨row', hr'⟩ := Option.isSome_iff_exists.mp hs
  have ht : row'.topic = row.topic := by simpa using List.find?_some hr'
  rw [hr', List.inj_on_of_nodup_map h (List.mem_of_find?_eq_some hr') hr ht]

theorem Distinct.subscription? {db : Database} (h : db.Distinct) {row : SubscriptionRow}
    (hr : row ∈ db.subscriptions) : db.subscription? row.topic = some row :=
  subscription?_of_mem h.topics hr

theorem mem_of_carrier? {db : Database} {requestId : String} {row : SubscriptionRow}
    (h : db.carrier? (some requestId) = some row) :
    row ∈ db.subscriptions ∧ row.requestId = some requestId :=
  ⟨List.mem_reverse.mp (List.mem_of_find?_eq_some h), by simpa using List.find?_some h⟩

theorem exists_carrier? {db : Database} {row : SubscriptionRow} (hr : row ∈ db.subscriptions)
    {requestId : String} (hid : row.requestId = some requestId) :
    ∃ last, db.carrier? (some requestId) = some last := by
  refine Option.isSome_iff_exists.mp (List.find?_isSome.mpr ⟨row, List.mem_reverse.mpr hr, ?_⟩)
  exact decide_eq_true hid

theorem Distinct.carrier? {db : Database} (h : db.Distinct) {row : SubscriptionRow}
    {requestId : String} (hr : row ∈ db.subscriptions) (hid : row.requestId = some requestId) :
    db.carrier? (some requestId) = some row := by
  obtain ⟨row', hr'⟩ := exists_carrier? hr hid
  obtain ⟨hm, hid'⟩ := mem_of_carrier? hr'
  rw [hr', eq_of_nodup_filterMap h.requests hm hr hid' hid]

theorem mem_putSubscription {db : Database} {new row : SubscriptionRow} :
    row ∈ (db.putSubscription new).subscriptions ↔
      (row ∈ db.subscriptions ∧ row.topic ≠ new.topic) ∨ row = new := by
  simp [putSubscription]

theorem nodup_put {α : Type} (key : α → String) {l : List α} (h : (l.map key).Nodup) (a : α) :
    ((l.filter (key · ≠ key a) ++ [a]).map key).Nodup := by
  rw [List.map_append, List.nodup_append]
  refine ⟨h.sublist (List.filter_sublist.map _), by simp, ?_⟩
  intro t ht u hu
  obtain ⟨b, hb, rfl⟩ := List.mem_map.mp ht
  simp only [List.map_cons, List.map_nil, List.mem_singleton] at hu
  subst hu
  simpa using (List.mem_filter.mp hb).2

theorem nodup_putSubscription {db : Database} (h : (db.subscriptions.map (·.topic)).Nodup)
    (new : SubscriptionRow) : ((db.putSubscription new).subscriptions.map (·.topic)).Nodup :=
  nodup_put SubscriptionRow.topic h new

theorem topics_setState (db : Database) (topic : String) (state : State) :
    (db.setState topic state).2.subscriptions.map (·.topic) =
      db.subscriptions.map (·.topic) := by
  simp only [Database.setState, List.map_map]
  refine List.map_congr_left fun row _ => ?_
  simp only [Function.comp]
  split <;> rfl

theorem Distinct.putSubscription {db : Database} (h : db.Distinct) {new : SubscriptionRow}
    (hn : ∀ requestId, new.requestId = some requestId → ∀ row ∈ db.subscriptions,
      row.requestId = some requestId → row.topic = new.topic) :
    (db.putSubscription new).Distinct := by
  refine ⟨nodup_putSubscription h.topics new, ?_⟩
  unfold Database.putSubscription
  rw [List.filterMap_append, List.nodup_append]
  refine ⟨h.requests.sublist (List.filter_sublist.filterMap _), ?_, ?_⟩
  · cases hid : new.requestId <;> simp [hid]
  · intro a ha b hb
    obtain ⟨row, hr, hra⟩ := List.mem_filterMap.mp ha
    obtain ⟨row', hr', hrb⟩ := List.mem_filterMap.mp hb
    simp only [List.mem_singleton] at hr'
    subst hr'
    rintro rfl
    have hne := (List.mem_filter.mp hr).2
    simp [hn a hrb row (List.mem_filter.mp hr).1 hra] at hne

theorem Distinct.congr {db db' : Database} (hs : db'.subscriptions = db.subscriptions)
    (h : db.Distinct) : db'.Distinct := ⟨hs ▸ h.topics, hs ▸ h.requests⟩

theorem Distinct.filter {db : Database} (h : db.Distinct) (p : SubscriptionRow → Bool) :
    ({ db with subscriptions := db.subscriptions.filter p } : Database).Distinct :=
  ⟨h.topics.sublist (List.filter_sublist.map _),
    h.requests.sublist (List.filter_sublist.filterMap _)⟩

theorem Distinct.setState {db : Database} (h : db.Distinct) (topic : String) (state : State) :
    (db.setState topic state).2.Distinct := by
  have hr : (db.setState topic state).2.subscriptions.filterMap (·.requestId) =
      db.subscriptions.filterMap (·.requestId) := by
    simp only [Database.setState, List.filterMap_map]
    refine List.filterMap_congr fun row _ => ?_
    simp only [Function.comp]
    split <;> rfl
  exact ⟨(topics_setState db topic state).symm ▸ h.topics, hr ▸ h.requests⟩

theorem mem_setState {db : Database} {topic : String} {state : State} {row : SubscriptionRow}
    (h : row ∈ (db.setState topic state).2.subscriptions) :
    ∃ old ∈ db.subscriptions, row.topic = old.topic ∧ row.requestId = old.requestId ∧
      ((old.topic = topic ∧ row.code = state.code) ∨ (old.topic ≠ topic ∧ row.code = old.code)) := by
  obtain ⟨old, ho, rfl⟩ := List.mem_map.mp h
  refine ⟨old, ho, ?_⟩
  by_cases ht : old.topic = topic
  · simp [ht]
  · simp [ht]

/-! ## Members -/

theorem member?_dropMember (db : Database) (topic subscriber t s : String) :
    (db.dropMember topic subscriber).2.member? t s =
      if t = topic ∧ s = subscriber then none else db.member? t s := by
  unfold dropMember member?
  rw [List.find?_filter]
  by_cases h : t = topic ∧ s = subscriber
  · rw [if_pos h, List.find?_eq_none]
    intro m _
    simp only [h.1, h.2, decide_eq_true_eq]
    exact fun hm => hm.1 hm.2
  · rw [if_neg h]
    congr 1
    funext m
    by_cases hm : m.topic = t ∧ m.subscriber = s
    · simp [hm.1, hm.2, h]
    · simp [hm]

/-- After an insert with an expiry the membership is there, whether or not it was before. -/
theorem member?_addMember {db db' : Database} {new : NewMember} {rows : Nat}
    (h : db.addMember new = .ok (rows, db')) (he : new.expiry.isSome) (t s : String) :
    (db'.member? t s).isSome =
      ((db.member? t s).isSome || decide (t = new.topic ∧ s = new.subscriber)) := by
  obtain ⟨expiry, he⟩ := Option.isSome_iff_exists.mp he
  unfold addMember at h
  rw [he] at h
  split at h
  · cases h
  · cases hm : db.member? new.topic new.subscriber with
    | none =>
      rw [hm] at h
      cases h
      unfold member?
      rw [List.find?_append]
      by_cases hts : t = new.topic ∧ s = new.subscriber
      · simp [hts]
      · have hts' : ¬(new.topic = t ∧ new.subscriber = s) := fun hn => hts ⟨hn.1.symm, hn.2.symm⟩
        simp [hts, hts']
    | some m =>
      rw [hm] at h
      cases h
      change (db.member? t s).isSome = _
      by_cases hts : t = new.topic ∧ s = new.subscriber
      · simp [hts, hm]
      · simp [hts]

theorem addMember_frame {db db' : Database} {new : NewMember} {rows : Nat}
    (h : db.addMember new = .ok (rows, db')) :
    db'.topics = db.topics ∧ db'.subscriptions = db.subscriptions ∧
      db.lastMember < lastId := by
  unfold addMember at h
  split at h
  · cases h
  · rename_i hl
    split at h <;> cases h <;> exact ⟨rfl, rfl, Nat.lt_of_not_le hl⟩

theorem addMember_members {db db' : Database} {new : NewMember} {rows : Nat}
    (h : db.addMember new = .ok (rows, db')) :
    (∃ row : MemberRow, row.topic = new.topic ∧ row.subscriber = new.subscriber ∧
        row.details = new.details ∧ some row.expiry = new.expiry ∧ row.requestId = new.requestId ∧
        db.member? new.topic new.subscriber = none ∧ db'.members = db.members ++ [row]) ∨
      ((new.expiry = none ∨ (db.member? new.topic new.subscriber).isSome) ∧
        db'.members = db.members) := by
  unfold addMember at h
  split at h
  · cases h
  · cases he : new.expiry with
    | none =>
      rw [he] at h
      cases h
      exact .inr ⟨.inl rfl, rfl⟩
    | some expiry =>
      cases hm : db.member? new.topic new.subscriber with
      | none =>
        rw [he, hm] at h
        cases h
        exact .inl ⟨_, rfl, rfl, rfl, rfl, rfl, rfl, rfl⟩
      | some row =>
        rw [he, hm] at h
        cases h
        exact .inr ⟨.inr rfl, rfl⟩

end Database

/-- How many numbers of memberships a write uses up. -/
def Write.uses : Write → Nat
  | .addMember _ => 1
  | _ => 0

theorem Database.run_uses {w : Write} {db db' : Database} {rows : Nat}
    (h : w.run db = .ok (rows, db')) : db'.lastMember = db.lastMember + w.uses := by
  cases w with
  | addMember new =>
    simp only [Write.run, addMember] at h
    split at h
    · cases h
    · split at h <;> cases h <;> rfl
  | _ =>
    cases h
    rfl

end PubSub
