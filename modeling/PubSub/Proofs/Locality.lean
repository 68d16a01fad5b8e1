import PubSub.Proofs.Roster

/-!
# Calls keep to their topic

A call that names a topic minds no other: what it comes to depends on the rows of
its topic alone (`Minds.eval_congr`), and it leaves the rows of every other topic as
they are (`Minds.frame`). The one thing that all topics share is the counter of
memberships, whose numbers no such call gives away. So calls on two topics can
change places.
-/

namespace PubSub

/-! ## The portion of a topic -/

/-- What a database holds of one topic, memberships without their numbers. -/
@[ext] structure Portion where
  tables : List Table
  topics : List TopicRow
  members : List MemberRow
  subscriptions : List SubscriptionRow

/-- What a write comes to in the portion of its topic. -/
def Portion.write (t : String) (q : Portion) : Write → Nat × Portion
  | .putTopic row => (1, { q with topics := q.topics.filter (·.topic ≠ t) ++ [row] })
  | .dropTopic _ =>
    (q.topics.countP (·.topic = t), { q with topics := q.topics.filter (·.topic ≠ t) })
  | .setNotification _ code =>
    (q.topics.countP fun row => row.topic = t ∧ row.notification ≠ code,
      { q with topics := q.topics.map fun row =>
          if row.topic = t then { row with notification := code } else row })
  | .addMember new =>
    match new.expiry, q.members.find? (·.subscriber = new.subscriber) with
    | some expiry, none =>
      (1, { q with members := q.members ++
        [⟨0, new.topic, new.subscriber, new.details, expiry, new.requestId⟩] })
    | _, _ => (0, q)
  | .dropMember _ subscriber =>
    (q.members.countP fun row => row.topic = t ∧ row.subscriber = subscriber,
      { q with members := q.members.filter fun row =>
          ¬(row.topic = t ∧ row.subscriber = subscriber) })
  | .dropMembers _ =>
    (q.members.countP (·.topic = t), { q with members := q.members.filter (·.topic ≠ t) })
  | .putSubscription _ state requestId =>
    (1, { q with
      subscriptions := q.subscriptions.filter (·.topic ≠ t) ++ [⟨t, state.code, requestId⟩] })
  | .setState _ state =>
    (q.subscriptions.countP (·.topic = t),
      { q with subscriptions := q.subscriptions.map fun row =>
          if row.topic = t then { row with code := state.code } else row })
  | .dropSubscription _ =>
    (q.subscriptions.countP (·.topic = t),
      { q with subscriptions := q.subscriptions.filter (·.topic ≠ t) })
  | .dropInState _ => (0, q)

namespace Database

def portion (db : Database) (t : String) : Portion where
  tables := db.tables
  topics := db.topics.filter (·.topic = t)
  members := (db.members.filter (·.topic = t)).map (·.unnumbered)
  subscriptions := db.subscriptions.filter (·.topic = t)

theorem topic?_eq_portion (db : Database) (t : String) : db.topic? t = (db.portion t).topics.head? :=
  List.head?_filter.symm

theorem subscription?_eq_portion (db : Database) (t : String) :
    db.subscription? t = (db.portion t).subscriptions.head? :=
  List.head?_filter.symm

theorem member?_eq_portion (db : Database) (t s : String) :
    (db.member? t s).map (·.unnumbered) = (db.portion t).members.find? (·.subscriber = s) := by
  unfold member? portion
  rw [List.find?_map, List.find?_filter]
  congr 2
  funext m
  simp [MemberRow.unnumbered]

/-! ### Rows of one key -/

section
variable {α : Type} (key : α → String) {t : String} {P : α → Prop} [DecidablePred P]
  (hP : ∀ a, P a → key a = t)

theorem filter_key_filter (p : α → Bool) (l : List α) :
    (l.filter p).filter (key · = t) = (l.filter (key · = t)).filter p := List.filter_comm ..

theorem filter_key_map {f : α → α} (hf : ∀ a, key (f a) = key a) (l : List α) :
    (l.map f).filter (key · = t) = (l.filter (key · = t)).map f := by
  rw [List.filter_map]
  congr 2
  funext a
  simp [hf]

theorem filter_key_put (p : α → Bool) (l : List α) {a : α} (ha : key a = t) :
    (l.filter p ++ [a]).filter (key · = t) = (l.filter (key · = t)).filter p ++ [a] := by
  rw [List.filter_append, filter_key_filter]
  simp [ha]

include hP

theorem countP_of_key (l : List α) : l.countP (P ·) = (l.filter (key · = t)).countP (P ·) := by
  rw [List.countP_filter]
  congr 1
  funext a
  by_cases ha : P a
  · simp [ha, hP a ha]
  · simp [ha]

variable {q : String → Bool} (hq : q t = false)

include hq

theorem filter_key_filter_of_apart (l : List α) :
    (l.filter (¬P ·)).filter (q <| key ·) = l.filter (q <| key ·) := by
  rw [List.filter_filter]
  refine List.filter_congr fun a _ => ?_
  by_cases ha : P a
  · simp [hP a ha, hq]
  · simp [ha]

theorem filter_key_put_of_apart (l : List α) {a : α} (ha : key a = t) :
    (l.filter (¬P ·) ++ [a]).filter (q <| key ·) = l.filter (q <| key ·) := by
  rw [List.filter_append, filter_key_filter_of_apart key hP hq]
  simp [ha, hq]

theorem filter_key_map_of_apart {f : α → α} (hf : ∀ a, key (f a) = key a) (l : List α) :
    (l.map fun a => if P a then f a else a).filter (q <| key ·) = l.filter (q <| key ·) := by
  induction l with
  | nil => rfl
  | cons a l ih =>
    rw [List.map_cons, List.filter_cons, List.filter_cons, ih]
    by_cases ha : P a
    · simp [ha, hf, hP a ha, hq]
    · simp [ha]

end

end Database

/-! ## Writes -/

namespace Write

def topic? : Write → Option String
  | .putTopic row => some row.topic
  | .dropTopic topic | .setNotification topic _ | .dropMember topic _ | .dropMembers topic
  | .putSubscription topic _ _ | .setState topic _ | .dropSubscription topic => some topic
  | .addMember new => some new.topic
  | .dropInState _ => none

end Write

@[ext] structure Selection where
  topics : List TopicRow
  members : List MemberRow
  subscriptions : List SubscriptionRow

namespace Database

/-- The rows of the topics that are asked for, in their order. -/
def selection (db : Database) (q : String → Bool) : Selection where
  topics := db.topics.filter (q ·.topic)
  members := db.members.filter (q ·.topic)
  subscriptions := db.subscriptions.filter (q ·.topic)

/-- What a write does to its topic can be told from the portion of that, if there are numbers left. -/
theorem run_portion {w : Write} {t : String} (hw : w.topic? = some t) {db : Database}
    (hroom : db.lastMember + w.uses ≤ lastId) :
    ∃ rows db', w.run db = .ok (rows, db') ∧ (rows, db'.portion t) = (db.portion t).write t w := by
  -- Putting, dropping and changing rows by a key commutes with picking out the rows of one topic.
  cases w with
  | putTopic row =>
    cases hw
    refine ⟨_, _, rfl, ?_⟩
    simp only [Portion.write, portion, putTopic, filter_key_put TopicRow.topic _ _ rfl]
  | dropTopic topic =>
    cases hw
    refine ⟨_, _, rfl, ?_⟩
    simp only [Portion.write, portion, ← countP_of_key TopicRow.topic fun a h => h,
      ← filter_key_filter TopicRow.topic]
  | setNotification topic code =>
    cases hw
    refine ⟨_, _, rfl, ?_⟩
    have hcount := countP_of_key TopicRow.topic
      (fun row (h : row.topic = t ∧ row.notification ≠ code) => h.1) db.topics
    simp only [Portion.write, portion, ← hcount]
    rw [filter_key_map TopicRow.topic fun a => by split <;> rfl]
  | addMember new =>
    cases hw
    have hroom' : ¬lastId ≤ db.lastMember := Nat.not_le_of_lt hroom
    simp only [Write.run, addMember, if_neg hroom', Portion.write, ← db.member?_eq_portion]
    cases new.expiry with
    | none => exact ⟨_, _, rfl, rfl⟩
    | some expiry =>
      cases db.member? new.topic new.subscriber with
      | none =>
        refine ⟨_, _, rfl, ?_⟩
        simp [portion, MemberRow.unnumbered]
      | some row => exact ⟨_, _, rfl, rfl⟩
  | dropMember topic subscriber =>
    cases hw
    refine ⟨_, _, rfl, ?_⟩
    have hcount := countP_of_key MemberRow.topic
      (fun row (h : row.topic = t ∧ row.subscriber = subscriber) => h.1) db.members
    simp only [Portion.write, portion, List.countP_map, List.filter_map, Function.comp_def,
      MemberRow.unnumbered, ← filter_key_filter MemberRow.topic, ← hcount]
  | dropMembers topic =>
    cases hw
    refine ⟨_, _, rfl, ?_⟩
    simp only [Portion.write, portion, List.countP_map, List.filter_map, Function.comp_def,
      MemberRow.unnumbered, ← filter_key_filter MemberRow.topic,
      ← countP_of_key MemberRow.topic fun a h => h]
  | putSubscription topic state requestId =>
    cases hw
    refine ⟨_, _, rfl, ?_⟩
    have hput : ∀ p : SubscriptionRow → Bool, _ := fun p =>
      filter_key_put SubscriptionRow.topic p db.subscriptions
        (show SubscriptionRow.topic ⟨t, state.code, requestId⟩ = t from rfl)
    simp only [Portion.write, portion, putSubscription, hput]
  | setState topic state =>
    cases hw
    refine ⟨_, _, rfl, ?_⟩
    simp only [Portion.write, portion, ← countP_of_key SubscriptionRow.topic fun a h => h]
    rw [filter_key_map SubscriptionRow.topic fun a => by split <;> rfl]
  | dropSubscription topic =>
    cases hw
    refine ⟨_, _, rfl, ?_⟩
    simp only [Portion.write, portion, ← countP_of_key SubscriptionRow.topic fun a h => h,
      ← filter_key_filter SubscriptionRow.topic]
  | dropInState state => cases hw

theorem run_selection {w : Write} {t : String} (hw : w.topic? = some t) {q : String → Bool}
    (hq : q t = false) {db db' : Database} {rows : Nat} (hrun : w.run db = .ok (rows, db')) :
    db'.tables = db.tables ∧ db'.selection q = db.selection q := by
  cases w with
  | putTopic row =>
    cases hrun
    cases hw
    have hrows := filter_key_put_of_apart TopicRow.topic (fun _ h => h) hq db.topics rfl
    exact ⟨rfl, Selection.ext hrows rfl rfl⟩
  | dropTopic topic =>
    cases hrun
    cases hw
    have hrows := filter_key_filter_of_apart TopicRow.topic (fun _ h => h) hq db.topics
    exact ⟨rfl, Selection.ext hrows rfl rfl⟩
  | setNotification topic code =>
    cases hrun
    cases hw
    have hrows := filter_key_map_of_apart TopicRow.topic (fun _ h => h) hq
      (show ∀ row : TopicRow, ({ row with notification := code } : TopicRow).topic = row.topic from
        fun _ => rfl) db.topics
    exact ⟨rfl, Selection.ext hrows rfl rfl⟩
  | addMember new =>
    cases hw
    simp only [Write.run, addMember] at hrun
    split at hrun
    · cases hrun
    · split at hrun
      · cases hrun
        refine ⟨rfl, Selection.ext rfl ?_ rfl⟩
        simp [selection, hq]
      · cases hrun
        exact ⟨rfl, rfl⟩
  | dropMember topic subscriber =>
    cases hrun
    cases hw
    have hrows := filter_key_filter_of_apart MemberRow.topic
      (fun row (h : row.topic = t ∧ row.subscriber = subscriber) => h.1) hq db.members
    exact ⟨rfl, Selection.ext rfl hrows rfl⟩
  | dropMembers topic =>
    cases hrun
    cases hw
    have hrows := filter_key_filter_of_apart MemberRow.topic (fun _ h => h) hq db.members
    exact ⟨rfl, Selection.ext rfl hrows rfl⟩
  | putSubscription topic state requestId =>
    cases hrun
    cases hw
    have hrows := filter_key_put_of_apart SubscriptionRow.topic (fun _ h => h) hq db.subscriptions
      (a := ⟨t, state.code, requestId⟩) rfl
    exact ⟨rfl, Selection.ext rfl rfl hrows⟩
  | setState topic state =>
    cases hrun
    cases hw
    have hrows := filter_key_map_of_apart SubscriptionRow.topic (fun _ h => h) hq
      (show ∀ row : SubscriptionRow, ({ row with code := state.code } : SubscriptionRow).topic =
        row.topic from fun _ => rfl) db.subscriptions
    exact ⟨rfl, Selection.ext rfl rfl hrows⟩
  | dropSubscription topic =>
    cases hrun
    cases hw
    have hrows := filter_key_filter_of_apart SubscriptionRow.topic (fun _ h => h) hq db.subscriptions
    exact ⟨rfl, Selection.ext rfl rfl hrows⟩
  | dropInState state => cases hw

theorem run_frame {w : Write} {t u : String} (hw : w.topic? = some t) (hu : u ≠ t)
    {db db' : Database} {rows : Nat} (hrun : w.run db = .ok (rows, db')) :
    db'.portion u = db.portion u := by
  have hq : decide (t = u) = false := decide_eq_false (Ne.symm hu)
  obtain ⟨ht, hs⟩ := run_selection hw (q := (decide <| · = u)) hq hrun
  exact Portion.ext ht (congrArg (·.topics) hs)
    (congrArg (·.members.map MemberRow.unnumbered) hs) (congrArg (·.subscriptions) hs)

end Database

/-! ## Scripts -/

theorem Database.has_congr {db db' : Database} {t : String} (h : db.portion t = db'.portion t)
    (table : Table) : db.has table = db'.has table := congrArg (·.tables.contains table) h

namespace Script

section
variable {α β : Type} {t : String}

/-- The script looks at the portion of one topic, writes to that topic, and uses up so many numbers
at the most. -/
def Minds (t : String) : Script α → Nat → Prop
  | .done _, _ | .fail _, _ => True
  | .look _ next, n =>
    (∀ db db' : Database, db.portion t = db'.portion t → next db = next db') ∧
      ∀ db, (next db).Minds t n
  | .write w next, n => w.topic? = some t ∧ w.uses ≤ n ∧ ∀ rows, (next rows).Minds t (n - w.uses)
  | .note _ next, n => next.Minds t n

theorem Minds.mono {s : Script α} {m n : Nat} (hs : s.Minds t m) (h : m ≤ n) : s.Minds t n := by
  induction s generalizing m n with
  | done a => trivial
  | fail failure => trivial
  | look table next ih => exact ⟨hs.1, fun db => ih db (hs.2 db) h⟩
  | write w next ih =>
    exact ⟨hs.1, Nat.le_trans hs.2.1 h, fun rows => ih rows (hs.2.2 rows) (Nat.sub_le_sub_right h _)⟩
  | note k next ih => exact ih hs h

theorem Minds.bind {s : Script α} {f : α → Script β} {m n : Nat} (hs : s.Minds t m)
    (hf : ∀ a, (f a).Minds t n) : (s.bind f).Minds t (m + n) := by
  induction s generalizing m with
  | done a => exact (hf a).mono (Nat.le_add_left n m)
  | fail failure => trivial
  | look table next ih =>
    exact ⟨fun db db' h => congrArg (·.bind f) (hs.1 db db' h), fun db => ih db (hs.2 db)⟩
  | write w next ih =>
    refine ⟨hs.1, Nat.le_trans hs.2.1 (Nat.le_add_right m n), fun rows => ?_⟩
    rw [Nat.sub_add_comm hs.2.1]
    exact ih rows (hs.2.2 rows)
  | note k next ih => exact ih hs

theorem Minds.noteAll (notes : List Note) {s : Script α} {n : Nat} (hs : s.Minds t n) :
    (Script.noteAll notes s).Minds t n := by
  induction notes with
  | nil => exact hs
  | cons k notes ih => exact ih

theorem Minds.ofExcept (e : Except Failure α) : (Script.ofExcept e).Minds t 0 := by
  cases e <;> trivial

theorem Minds.see {table : Table} {view : Database → α}
    (h : ∀ db db' : Database, db.portion t = db'.portion t → view db = view db') :
    (Script.see table view).Minds t 0 :=
  ⟨fun db db' hp => congrArg Script.done (h db db' hp), fun _ => trivial⟩

theorem Minds.issue {w : Write} (h : w.topic? = some t) : (Script.issue w).Minds t w.uses :=
  ⟨h, Nat.le_refl _, fun _ => trivial⟩

theorem Minds.eval_congr {s : Script α} {n : Nat} (hs : s.Minds t n) {db db' : Database}
    (h : db.portion t = db'.portion t) (hr : db.lastMember + n ≤ Database.lastId)
    (hr' : db'.lastMember + n ≤ Database.lastId) :
    (s.eval db).1 = (s.eval db').1 ∧ (s.eval db).2.portion t = (s.eval db').2.portion t := by
  induction s generalizing n db db' with
  | done a => exact ⟨rfl, h⟩
  | fail failure => exact ⟨rfl, h⟩
  | look table next ih =>
    simp only [eval, Database.has_congr h table, hs.1 db db' h]
    split
    · exact ih db' (hs.2 db') h hr hr'
    · exact ⟨rfl, h⟩
  | write w next ih =>
    obtain ⟨hw, hn, hnext⟩ := hs
    obtain ⟨rows, d, hrun, hd⟩ := Database.run_portion hw (show db.lastMember + _ ≤ _ by omega)
    obtain ⟨rows', d', hrun', hd'⟩ := Database.run_portion hw (show db'.lastMember + _ ≤ _ by omega)
    rw [h, ← hd', Prod.mk.injEq] at hd
    obtain ⟨rfl, hd⟩ := hd
    have hl := Database.run_uses hrun
    have hl' := Database.run_uses hrun'
    simp only [eval, Database.has_congr h w.table, hrun, hrun']
    split
    · exact ⟨rfl, h⟩
    · split
      · exact ⟨rfl, h⟩
      · exact ih rows (hnext rows) hd (by omega) (by omega)
  | note k next ih => exact ih hs h hr hr'

theorem Minds.frame {s : Script α} {n : Nat} (hs : s.Minds t n) {u : String} (hu : u ≠ t)
    (db : Database) :
    (s.eval db).2.portion u = db.portion u ∧ (s.eval db).2.lastMember ≤ db.lastMember + n := by
  induction s generalizing n db with
  | done a => exact ⟨rfl, Nat.le_add_right _ _⟩
  | fail failure => exact ⟨rfl, Nat.le_add_right _ _⟩
  | look table next ih =>
    simp only [eval]
    split
    · exact ih db (hs.2 db) db
    · exact ⟨rfl, Nat.le_add_right _ _⟩
  | write w next ih =>
    obtain ⟨hw, hn, hnext⟩ := hs
    simp only [eval]
    split
    · exact ⟨rfl, Nat.le_add_right _ _⟩
    · split
      · exact ⟨rfl, Nat.le_add_right _ _⟩
      · split
        · rename_i rows d hrun
          obtain ⟨hp, hl⟩ := ih rows (hnext rows) d
          have := Database.run_uses hrun
          exact ⟨hp.trans (Database.run_frame hw hu hrun), by omega⟩
        · exact ⟨rfl, Nat.le_add_right _ _⟩
  | note k next ih => exact ih hs db

end

end Script

/-! ## Operations -/

namespace Operation

section
variable {α β : Type} {t : String} {n : Nat} {op : Operation α}

def Minds (t : String) (n : Nat) (op : Operation α) : Prop := op.body.Minds t n

theorem Minds.map (h : op.Minds t n) (f : α → β) : (op.map f).Minds t n :=
  Script.Minds.bind (n := 0) h fun _ => trivial

theorem Minds.concluding (h : op.Minds t n) (f : Except Failure α → Conclusion β) :
    (op.concluding f).Minds t n :=
  Script.Minds.bind (n := 0) h fun _ => trivial

theorem Minds.inline (h : op.Minds t n) : op.inline.Minds t n := by
  unfold Operation.inline
  split
  · trivial
  · exact Script.Minds.bind (n := 0) h fun c => .noteAll c.notes (.ofExcept c.result)

theorem Minds.alone_congr (h : op.Minds t n) {db db' : Database} (hp : db.portion t = db'.portion t)
    (hr : db.lastMember + n ≤ Database.lastId) (hr' : db'.lastMember + n ≤ Database.lastId) :
    (op.alone db).1 = (op.alone db').1 ∧ (op.alone db).2.portion t = (op.alone db').2.portion t := by
  obtain ⟨hres, hd⟩ := Script.Minds.eval_congr h hp hr hr'
  unfold alone
  cases op.refusal with
  | some failure => exact ⟨rfl, hp⟩
  | none =>
    cases he : op.body.eval db with
    | mk result d =>
      cases he' : op.body.eval db' with
      | mk result' d' =>
        rw [he, he'] at hres hd
        obtain rfl : result = result' := hres
        cases result with
        | ok last => exact ⟨rfl, hd⟩
        | error failure => exact ⟨rfl, hp⟩

theorem Minds.alone_frame (h : op.Minds t n) {u : String} (hu : u ≠ t) (db : Database) :
    (op.alone db).2.portion u = db.portion u ∧ (op.alone db).2.lastMember ≤ db.lastMember + n := by
  have hf := Script.Minds.frame h hu db
  unfold alone
  split
  · exact ⟨rfl, Nat.le_add_right _ _⟩
  · split
    · rename_i he
      rwa [he] at hf
    · exact ⟨rfl, Nat.le_add_right _ _⟩

end

end Operation

/-! ## Calls -/

namespace Directory

theorem holds_minds (topic : String) : (holds topic).Minds topic 0 :=
  .see fun db db' h => by rw [db.topic?_eq_portion, db'.topic?_eq_portion, h]

theorem register_minds (topic publisher : String) (details : Option String) (enabled : Flag) :
    (register topic publisher details enabled).Minds topic 0 :=
  .bind (n := 0) (.ofExcept _) fun _ => .bind (n := 0) (.issue rfl) fun _ => trivial

theorem deregister_minds (topic : String) : (deregister topic).Minds topic 0 :=
  .bind (n := 0) (.issue rfl) fun _ => .bind (n := 0) (.issue rfl) fun _ => trivial

theorem setNotification_minds (topic : String) (enabled : Flag) :
    (setNotification topic enabled).Minds topic 0 := by
  refine .bind (n := 0) (.ofExcept _) fun code => .bind (n := 0) (.issue rfl) fun rows => ?_
  split
  · trivial
  · refine .bind (n := 0) (holds_minds topic) fun registered => ?_
    cases registered <;> trivial

theorem isRegistered_minds (topic : String) : (isRegistered topic).Minds topic 0 :=
  .bind (n := 0) (holds_minds topic) fun _ => trivial

end Directory

namespace Membership

theorem add_minds (topic subscriber : String) (details : Details) (expiry : Option Int)
    (requestId : Option String) : (add topic subscriber details expiry requestId).Minds topic 1 := by
  refine .bind (n := 1) (.ofExcept _) fun written => .bind (n := 0) (.issue rfl) fun rows => ?_
  split <;> trivial

theorem remove_minds (topic subscriber : String) : (remove topic subscriber).Minds topic 0 := by
  refine .bind (n := 0) (.issue rfl) fun rows => ?_
  split <;> trivial

theorem removeAll_minds (topic : String) : (removeAll topic).Minds topic 0 :=
  .bind (n := 0) (.issue rfl) fun _ => trivial

theorem concludeOne_isSome (row : Option MemberRow) :
    (concludeOne row).map Option.isSome = (concludeOne (row.map (·.unnumbered))).map Option.isSome := by
  cases row with
  | none => rfl
  | some row =>
    simp only [Option.map_some, concludeOne, Conclusion.map, MemberRow.record, MemberRow.unnumbered]
    cases Details.decode row.details <;> rfl

theorem isSubscribed_minds (topic subscriber : String) :
    (isSubscribed topic subscriber).Minds topic 0 := by
  refine ⟨fun db db' h => ?_, fun _ => trivial⟩
  change Script.done ((concludeOne (db.member? topic subscriber)).map Option.isSome) =
    .done ((concludeOne (db'.member? topic subscriber)).map Option.isSome)
  rw [concludeOne_isSome (db.member? _ _), concludeOne_isSome (db'.member? _ _),
    db.member?_eq_portion, db'.member?_eq_portion, h]

end Membership

namespace Negotiation

theorem lookUp_minds (topic : String) : (lookUp topic).Minds topic 0 := by
  refine .bind (n := 0) (.see fun db db' h => ?_) fun row => ?_
  · rw [db.subscription?_eq_portion, db'.subscription?_eq_portion, h]
  · cases row with
    | none => trivial
    | some row => exact .ofExcept _

theorem stateNow_minds (topic : String) : (stateNow topic).Minds topic 0 :=
  .bind (n := 0) (lookUp_minds topic) fun _ => trivial

theorem check_minds (topic : String) (current next : State) :
    (check topic current next).Minds topic 0 := by
  unfold check
  split <;> trivial

theorem request_minds (topic : String) (next : State) (requestId : String) :
    (request topic next requestId).Minds topic 0 :=
  .bind (n := 0) (stateNow_minds topic) fun _ => .bind (n := 0) (check_minds topic _ _) fun _ =>
    .bind (n := 0) (.issue rfl) fun _ => trivial

theorem requestSubscribe_minds (topic requestId : String) :
    (requestSubscribe topic requestId).Minds topic 0 := by
  refine .bind (n := 0) (Directory.holds_minds topic) fun registered => ?_
  cases registered with
  | true => exact request_minds topic .subscribePending requestId
  | false => trivial

theorem requestUnsubscribe_minds (topic requestId : String) :
    (requestUnsubscribe topic requestId).Minds topic 0 :=
  request_minds topic .unsubscribePending requestId

theorem resolve_minds (topic : String) (accepted : Bool) : (resolve topic accepted).Minds topic 0 := by
  refine .bind (n := 0) (lookUp_minds topic) fun record => ?_
  simp only
  split
  · trivial
  · exact .bind (n := 0) (check_minds topic _ _) fun _ => .bind (n := 0) (.issue rfl) fun _ => trivial

theorem retire_minds (topic : String) : (retire topic).Minds topic 0 := by
  refine .bind (n := 0) (lookUp_minds topic) fun record => .bind (n := 0) (.issue rfl) fun _ => ?_
  split <;> trivial

theorem get_minds (topic : String) : (get topic).Minds topic 0 :=
  .bind (n := 0) (lookUp_minds topic) fun _ => trivial

theorem purge_minds (topic : String) : (purge topic).Minds topic 0 := by
  refine .bind (n := 0) (.issue rfl) fun rows => ?_
  split <;> trivial

end Negotiation

namespace Response

theorem confirmWithMember_minds (topic subscriber : String) (details : Details)
    (expiry : Option Int) : (confirmWithMember topic subscriber details expiry).Minds topic 1 := by
  refine .bind (n := 1) (Negotiation.get_minds topic).inline fun record =>
    .bind (n := 1) (Negotiation.resolve_minds topic true).inline fun state => ?_
  simp only
  split
  · exact .bind (n := 0) (Membership.add_minds topic subscriber details expiry _).inline
      fun _ => trivial
  · exact .bind (n := 1) (Membership.remove_minds topic subscriber).inline fun _ => trivial

theorem applyConfirmation_minds (topic subscriber : String) (details : Details)
    (expiry : Option Int) : (applyConfirmation topic subscriber details expiry).Minds topic 1 := by
  refine Operation.Minds.concluding ?_ counted
  exact Script.Minds.bind (n := 0) (confirmWithMember_minds topic subscriber details expiry)
    fun _ => trivial

theorem applyDenial_minds (topic : String) : (applyDenial topic).Minds topic 0 :=
  (Negotiation.resolve_minds topic false).concluding counted

theorem handleWithdrawal_minds (topic : String) : (handleWithdrawal topic).Minds topic 0 :=
  (Negotiation.retire_minds topic).concluding _

end Response

namespace Healing

theorem repair_minds (topic subscriber : String) (registered : Bool)
    (record : Option SubscriptionRecord) (present : Bool) :
    (repair topic subscriber registered record present).Minds topic 1 := by
  rcases repair_cases topic subscriber registered record present with h | h | ⟨-, requestId, h⟩
  · rw [h]
    trivial
  · rw [h]
    exact (Membership.remove_minds topic subscriber).inline.mono (Nat.zero_le 1)
  · rw [h]
    exact (Membership.add_minds topic subscriber .empty (some 0) requestId).inline

theorem heal_minds (topic subscriber : String) : (heal topic subscriber).Minds topic 1 := by
  refine .bind (n := 1) (Directory.isRegistered_minds topic).inline fun registered =>
    .bind (n := 1) (Negotiation.get_minds topic).inline fun record =>
      .bind (n := 1) (Membership.isSubscribed_minds topic subscriber).inline fun present =>
        .bind (n := 0) (repair_minds topic subscriber registered record present) fun changed => ?_
  cases changed <;> trivial

end Healing

def Call.address? : Call → Option String
  | .registerTopic topic .. | .deregisterTopic topic | .setNotification topic _
  | .addSubscriber topic .. | .removeSubscriber topic _ | .removeAllForTopic topic
  | .requestSubscribe topic _ | .requestUnsubscribe topic _ | .confirm topic | .deny topic
  | .retire topic | .purge topic | .applyConfirmation topic .. | .applyDenial topic
  | .handleWithdrawal topic | .heal topic _ => some topic
  | _ => none

theorem Call.minds {call : Call} {t : String} (h : call.address? = some t) :
    call.operation.Minds t 1 := by
  have key : ∀ {α : Type} {op : Operation α} {topic : String} {f : α → Reply}, some topic = some t →
      op.Minds topic 0 → (op.map f).Minds t 1 := fun he ho =>
    Script.Minds.mono ((Option.some.inj he ▸ ho).map _) (Nat.zero_le 1)
  cases call with
  | registerTopic topic publisher details enabled =>
    exact key h (Directory.register_minds topic publisher details enabled)
  | deregisterTopic topic => exact key h (Directory.deregister_minds topic)
  | setNotification topic enabled => exact key h (Directory.setNotification_minds topic enabled)
  | addSubscriber topic subscriber details expiry requestId =>
    cases h
    exact (Membership.add_minds t subscriber details expiry requestId).map _
  | removeSubscriber topic subscriber => exact key h (Membership.remove_minds topic subscriber)
  | removeAllForTopic topic => exact key h (Membership.removeAll_minds topic)
  | requestSubscribe topic requestId => exact key h (Negotiation.requestSubscribe_minds topic requestId)
  | requestUnsubscribe topic requestId =>
    exact key h (Negotiation.requestUnsubscribe_minds topic requestId)
  | confirm topic => exact key h (Negotiation.resolve_minds topic true)
  | deny topic => exact key h (Negotiation.resolve_minds topic false)
  | retire topic => exact key h (Negotiation.retire_minds topic)
  | purge topic => exact key h (Negotiation.purge_minds topic)
  | applyConfirmation topic subscriber details expiry =>
    cases h
    exact (Response.applyConfirmation_minds t subscriber details expiry).map _
  | applyDenial topic => exact key h (Response.applyDenial_minds topic)
  | handleWithdrawal topic => exact key h (Response.handleWithdrawal_minds topic)
  | heal topic subscriber =>
    cases h
    exact (Healing.heal_minds t subscriber).map _
  | _ => cases h

/-! ## Two calls -/

namespace Database

/-- Two databases agree on every topic, whatever the numbers of their memberships. -/
structure Matches (db db' : Database) : Prop where
  topics : db.topics.Perm db'.topics
  subscription : ∀ t, db.subscription? t = db'.subscription? t
  members : ∀ t, (db.members.filter (·.topic = t)).map (·.unnumbered) =
    (db'.members.filter (·.topic = t)).map (·.unnumbered)

theorem matches_of_portions {db db' : Database} (h : ∀ t, db.portion t = db'.portion t) :
    db.Matches db' where
  topics := by
    refine List.perm_iff_count.mpr fun row => ?_
    have hrow : (decide (row.topic = row.topic)) = true := decide_eq_true rfl
    rw [← List.count_filter (p := fun r : TopicRow => r.topic = row.topic) hrow,
      ← List.count_filter (p := fun r : TopicRow => r.topic = row.topic) (l := db'.topics) hrow]
    exact congrArg (·.topics.count row) (h row.topic)
  subscription t := by rw [subscription?_eq_portion, subscription?_eq_portion, h]
  members t := congrArg (·.members) (h t)

end Database

theorem Operation.alone_comm {α β : Type} {f : Operation α} {g : Operation β} {t u : String}
    (hf : f.Minds t 1) (hg : g.Minds u 1) (hne : t ≠ u) {db : Database}
    (hroom : db.lastMember + 2 ≤ Database.lastId) :
    (f.alone (g.alone db).2).1 = (f.alone db).1 ∧ (g.alone (f.alone db).2).1 = (g.alone db).1 ∧
      ∀ s, (g.alone (f.alone db).2).2.portion s = (f.alone (g.alone db).2).2.portion s := by
  have hf₁ := fun s (hs : s ≠ t) => hf.alone_frame hs db
  have hg₁ := fun s (hs : s ≠ u) => hg.alone_frame hs db
  obtain ⟨hft, hfl⟩ := hf₁ u hne.symm
  obtain ⟨hgu, hgl⟩ := hg₁ t hne
  obtain ⟨hfres, hfdb⟩ := hf.alone_congr hgu (by omega) (by omega)
  obtain ⟨hgres, hgdb⟩ := hg.alone_congr hft (by omega) (by omega)
  refine ⟨hfres, hgres, fun s => ?_⟩
  by_cases hst : s = t
  · subst hst
    rw [(hg.alone_frame hne _).1, hfdb]
  · by_cases hsu : s = u
    · subst hsu
      rw [(hf.alone_frame hst _).1, hgdb]
    · rw [(hg.alone_frame hsu _).1, (hf₁ s hst).1, (hf.alone_frame hst _).1, (hg₁ s hsu).1]

namespace World

/-- Two changing calls on different topics can change places on a store where nothing stands in
their way and two numbers are left: each comes to the same result or failure, and the databases
agree on every topic. -/
theorem calls_commute {w : World} {i : Nat} (hc : w.Calm i) {db : Database}
    (hdb : w.committed? i = some db) (hroom : db.lastMember + 2 ≤ Database.lastId) {f g : Call}
    {t u : String} (hf : f.address? = some t) (hg : g.address? = some u) (hne : t ≠ u) :
    let wf := w.call i f.operation
    let wg := w.call i g.operation
    let wfg := wf.1.call i g.operation
    let wgf := wg.1.call i f.operation
    wf.2 = wgf.2 ∧ wfg.2 = wg.2 ∧
      ∃ dfg dgf, wfg.1.committed? i = some dfg ∧ wgf.1.committed? i = some dgf ∧
        dfg.Matches dgf := by
  intro wf wg wfg wgf
  obtain ⟨hrf, hdf⟩ := call_of_calm hc hdb f.operation
  obtain ⟨hrg, hdg⟩ := call_of_calm hc hdb g.operation
  obtain ⟨hrfg, hdfg⟩ := call_of_calm (calm_call hc f) hdf g.operation
  obtain ⟨hrgf, hdgf⟩ := call_of_calm (calm_call hc g) hdg f.operation
  obtain ⟨hresf, hresg, hportions⟩ := Operation.alone_comm (f.minds hf) (g.minds hg) hne hroom
  refine ⟨?_, ?_, _, _, hdfg, hdgf, Database.matches_of_portions hportions⟩
  · rw [hrf, hrgf, hresf]
  · rw [hrg, hrfg, hresg]

/-- Two memberships come in the one order or in the other, which is all the difference. -/
theorem calls_commute_twoInserts :
    let f := (Call.addSubscriber "t" "s" (.list []) (some 0) none).operation
    let g := (Call.addSubscriber "u" "s" (.list []) (some 0) none).operation
    let wfg := ((lone .fresh []).call 0 f).1.call 0 g
    let wgf := ((lone .fresh []).call 0 g).1.call 0 f
    wfg.2 = .ok (.truth true) ∧ wgf.2 = .ok (.truth true) ∧
      ∃ dfg dgf, wfg.1.committed? 0 = some dfg ∧ wgf.1.committed? 0 = some dgf ∧
        dfg.Matches dgf ∧ dfg ≠ dgf := by
  intro f g wfg wgf
  have hfg : (wfg.1.committed? 0).map (·.members.map (·.topic)) = some ["t", "u"] := by
    decide +kernel
  have hgf : (wgf.1.committed? 0).map (·.members.map (·.topic)) = some ["u", "t"] := by
    decide +kernel
  obtain ⟨hresf, hresg, dfg, dgf, hdfg, hdgf, hm⟩ := calls_commute (lone_calm .fresh) rfl
    (by decide) (f := .addSubscriber "t" "s" (.list []) (some 0) none)
    (g := .addSubscriber "u" "s" (.list []) (some 0) none) rfl rfl (by decide)
  refine ⟨hresg.trans rfl, hresf.symm.trans rfl, dfg, dgf, hdfg, hdgf, hm, fun he => ?_⟩
  rw [hdfg] at hfg
  rw [hdgf, ← he] at hgf
  exact absurd (hfg.symm.trans hgf) (by decide)

end World

end PubSub
