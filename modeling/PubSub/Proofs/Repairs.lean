import PubSub.Proofs.Locality
import PubSub.Proofs.Recovery
import PubSub.Proofs.Responding
import PubSub.Proofs.Soundness

/-!
# Memberships that are healed

A heal looks at one membership and the topic it belongs to, and it leaves one database
(`healed`), which is written out here. Heals of different memberships neither see nor touch
each other's rows, so that any number of them can be made in any order (`course_perm`):
what is left is the same but for numbers and places.
-/

namespace PubSub

theorem Database.Reached.sound {db : Database} (h : db.Reached) : db.Sound := by
  induction h with
  | fresh => exact sound_fresh
  | call h call hr hs ih => exact call.sound.keeps hr _ _ ih hs

namespace Database

/-! ## What a heal leaves -/

def present (db : Database) (pair : String × String) : Bool := (db.member? pair.1 pair.2).isSome

/-- Whether a membership should be there. -/
def wants (db : Database) (pair : String × String) : Bool :=
  Healing.wanted (db.topic? pair.1).isSome (db.stateOf pair.1) (db.present pair)

def ails (db : Database) (pair : String × String) : Bool := db.wants pair != db.present pair

def joined (db : Database) (pair : String × String) : Database :=
  { db with
    members := db.members ++
      [⟨db.lastMember + 1, pair.1, pair.2, Details.encodeTexts [], 0, db.requestOf pair.1⟩]
    lastMember := db.lastMember + 1 }

def healed (db : Database) (pair : String × String) : Database :=
  if db.ails pair then
    if db.present pair then (db.dropMember pair.1 pair.2).2 else db.joined pair
  else db

theorem present_iff {db : Database} {pair : String × String} :
    db.present pair = true ↔ ∃ row ∈ db.members, (row.topic, row.subscriber) = pair := by
  obtain ⟨topic, subscriber⟩ := pair
  simp [present, member?, List.find?_isSome]

theorem dropMember_pos {db : Database} {pair : String × String} (hp : db.present pair = true) :
    0 < (db.dropMember pair.1 pair.2).1 := by
  obtain ⟨row, hr, rfl⟩ := present_iff.mp hp
  simpa [dropMember, List.countP_pos_iff] using ⟨row, hr, rfl, rfl⟩

theorem addMember_joined {db : Database} {pair : String × String} (hp : db.present pair = false)
    (hroom : db.lastMember < lastId) :
    db.addMember ⟨pair.1, pair.2, Details.encodeTexts [], some 0, db.requestOf pair.1⟩ =
      .ok (1, db.joined pair) := by
  have hnone : db.member? pair.1 pair.2 = none := by simpa [present] using hp
  simp only [addMember, Nat.not_le.mpr hroom, if_false, hnone]
  rfl

end Database

namespace Healing

theorem repair_eq (topic subscriber : String) (registered : Bool) (record : Option SubscriptionRecord)
    (present : Bool) :
    repair topic subscriber registered record present =
      if wanted registered (SubscriptionRecord.stateOf record) present != present then
        if present then (Membership.remove topic subscriber).inline
        else (Membership.add topic subscriber .empty (some 0) (record.bind (·.requestId))).inline
      else .done false := by
  unfold repair
  cases registered with
  | false => cases present <;> rfl
  | true =>
    generalize SubscriptionRecord.stateOf record = state
    cases state <;> cases present <;> rfl

section
variable {db : Database} (h : db.Sound) (pair : String × String)

include h

theorem isSubscribed_eval : (Membership.isSubscribed pair.1 pair.2).inline.eval db =
    (.ok (db.present pair), db) := by
  have hlook : (Membership.get pair.1 pair.2).body.eval db =
      (.ok (Membership.concludeOne (db.member? pair.1 pair.2)), db) := by
    simp [Membership.get, Script.eval_bind, Script.eval_see (h.wellFormed.has .subscribers)]
  obtain ⟨record, hrec, hsome⟩ : ∃ record, (Membership.concludeOne (db.member? pair.1 pair.2)).result =
      .ok record ∧ record.isSome = db.present pair := by
    unfold Database.present
    cases hm : db.member? pair.1 pair.2 with
    | none => exact ⟨none, rfl, rfl⟩
    | some row =>
      obtain ⟨record, hr⟩ := h.record_of_member (List.mem_of_find?_eq_some hm)
      exact ⟨some record, by simp [Membership.concludeOne, hr, Except.map], rfl⟩
  refine Operation.returns_map.mpr ⟨record, (Operation.returns_of_ok hlook).mpr ⟨rfl, hrec, rfl⟩, ?_⟩
  exact hsome.symm

theorem repaired_eval (hs : pair.2 ≠ "")
    (hroom : db.wants pair = true → db.present pair = false → db.lastMember < Database.lastId) :
    (repair pair.1 pair.2 (db.topic? pair.1).isSome (db.record? pair.1) (db.present pair)).eval db =
      (.ok (db.ails pair), db.healed pair) := by
  have hremove : db.present pair = true → (Membership.remove pair.1 pair.2).inline.eval db =
      (.ok true, (db.dropMember pair.1 pair.2).2) := fun hp =>
    (Membership.remove_returns h.wellFormed).mpr
      ⟨(decide_eq_true (Database.dropMember_pos hp)).symm, rfl⟩
  have hadd : db.wants pair = true → db.present pair = false →
      (Membership.add pair.1 pair.2 .empty (some 0) (db.requestOf pair.1)).inline.eval db =
        (.ok true, db.joined pair) := by
    intro hw hp
    have hreg : (db.topic? pair.1).isSome := by
      simp only [Database.wants, wanted, Bool.and_eq_true] at hw
      exact hw.1
    have hne : pair.1 ≠ "" := Database.Named.topic (fun row hr => (h.published row hr).1) hreg
    exact (Membership.add_returns h.wellFormed).mpr ⟨hne, hs, rfl, _, 1, rfl, rfl,
      Database.addMember_joined hp (hroom hw hp)⟩
  rw [repair_eq, stateOf_record?, requestOf_record?]
  unfold Database.healed
  change (if db.ails pair then _ else _ : Script Bool).eval db = _
  cases ha : db.ails pair with
  | false => rfl
  | true =>
    simp only [if_true]
    cases hp : db.present pair with
    | true => exact hremove hp
    | false =>
      have hw : db.wants pair = true := by simpa [Database.ails, hp] using ha
      exact hadd hw hp

theorem heal_returns (hs : pair.2 ≠ "")
    (hroom : db.wants pair = true → db.present pair = false → db.lastMember < Database.lastId) :
    (heal pair.1 pair.2).Returns db (db.ails pair) (db.healed pair) := by
  have hreg : (Directory.isRegistered pair.1).inline.eval db = (.ok (db.topic? pair.1).isSome, db) :=
    (Directory.isRegistered_returns h.wellFormed).mpr ⟨rfl, rfl⟩
  have hget : (Negotiation.get pair.1).inline.eval db = (.ok (db.record? pair.1), db) :=
    Negotiation.get_returns h.wellFormed pair.1
  have hb : ∃ last, (heal pair.1 pair.2).body.eval db = (.ok last, db.healed pair) ∧
      last.result = .ok (db.ails pair) := by
    simp only [heal, Script.bind_eq, Script.eval_bind, hreg, hget, isSubscribed_eval h pair,
      Script.andThen_ok, repaired_eval h pair hs hroom]
    cases db.ails pair <;> exact ⟨_, rfl, rfl⟩
  obtain ⟨last, hb, hl⟩ := hb
  exact (Operation.returns_of_ok hb).mpr ⟨rfl, hl, rfl⟩

theorem call_returns (hs : pair.2 ≠ "")
    (hroom : db.wants pair = true → db.present pair = false → db.lastMember < Database.lastId) :
    (Call.heal pair.1 pair.2).operation.Returns db (.truth (db.ails pair)) (db.healed pair) :=
  Operation.returns_map.mpr ⟨_, heal_returns h pair hs hroom, rfl⟩

end

end Healing

/-! ## One heal -/

namespace Database

section
variable (db : Database) (pair : String × String)

theorem healed_topics : (db.healed pair).topics = db.topics := by
  unfold healed
  split
  · split <;> rfl
  · rfl

theorem lastMember_healed : (db.healed pair).lastMember ≤ db.lastMember + 1 := by
  unfold healed
  split
  · split
    · exact Nat.le_succ _
    · exact Nat.le_refl _
  · exact Nat.le_succ _

theorem healed_subscriptions : (db.healed pair).subscriptions = db.subscriptions := by
  unfold healed
  split
  · split <;> rfl
  · rfl

/-- What is left of the rows that were there: all but those of the pair, where it should not be. -/
def keeps (row : MemberRow) : Bool := !(db.ails pair && (row.topic, row.subscriber) = pair)

def added : List MemberRow :=
  if db.ails pair && !db.present pair then
    [⟨0, pair.1, pair.2, Details.encodeTexts [], 0, db.requestOf pair.1⟩]
  else []

theorem healed_members : (db.healed pair).members.map (·.unnumbered) =
    (db.members.map (·.unnumbered)).filter (db.keeps pair) ++ db.added pair := by
  have hfilter : ∀ rows : List MemberRow, (rows.map (·.unnumbered)).filter (db.keeps pair) =
      (rows.filter (db.keeps pair)).map (·.unnumbered) := fun rows => by
    rw [List.filter_map]
    rfl
  have hall : db.ails pair = false ∨ db.present pair = false →
      db.members.filter (db.keeps pair) = db.members := by
    intro hn
    refine List.filter_eq_self.mpr fun row hr => ?_
    rcases hn with ha | hp
    · simp [keeps, ha]
    · have hne : (row.topic, row.subscriber) ≠ pair := fun he =>
        absurd (present_iff.mpr ⟨row, hr, he⟩) (by simp [hp])
      simp [keeps, hne]
  rw [hfilter]
  unfold healed added
  cases ha : db.ails pair with
  | false => simp [hall (.inl ha)]
  | true =>
    cases hp : db.present pair with
    | false => simp [hall (.inr hp), joined, MemberRow.unnumbered]
    | true =>
      have hkeeps : (fun row : MemberRow => decide ¬(row.topic = pair.1 ∧ row.subscriber = pair.2)) =
          db.keeps pair := by
        funext row
        simp [keeps, ha, Prod.ext_iff]
      simp [dropMember, ← hkeeps]

theorem present_healed (q : String × String) :
    (db.healed pair).present q = if q = pair then db.wants pair else db.present q := by
  cases ha : db.ails pair with
  | false =>
    have hw : db.wants pair = db.present pair := by simpa [ails] using ha
    simp only [healed, ha, Bool.false_eq_true, if_false]
    split
    · rename_i hq
      rw [hq, hw]
    · rfl
  | true =>
    cases hp : db.present pair with
    | true =>
      have hw : db.wants pair = false := by simpa [ails, hp] using ha
      have hd : db.healed pair = (db.dropMember pair.1 pair.2).2 := by simp [healed, ha, hp]
      rw [hd, hw, present, member?_dropMember]
      by_cases hq : q = pair
      · simp [hq]
      · have hq' : ¬(q.1 = pair.1 ∧ q.2 = pair.2) := fun he => hq (Prod.ext he.1 he.2)
        simp [hq, hq', present]
    | false =>
      have hw : db.wants pair = true := by simpa [ails, hp] using ha
      simp only [healed, ha, hp, if_true, Bool.false_eq_true, if_false, hw]
      rw [Bool.eq_iff_iff, present_iff]
      by_cases hq : q = pair
      · simp [joined, hq]
      · simp [joined, present_iff, hq, Ne.symm hq]

theorem beside_healed : (db.healed pair).beside pair.1 pair.2 = db.beside pair.1 pair.2 := by
  unfold healed
  split
  · split
    · exact beside_dropMember ..
    · simp [beside, joined]
  · rfl

theorem wants_healed (q : String × String) : (db.healed pair).wants q =
    if q = pair then db.wants pair else db.wants q := by
  unfold wants
  rw [present_healed, topic?_congr (db.healed_topics pair), stateOf_congr (db.healed_subscriptions pair)]
  split
  · rename_i hq
    rw [hq]
    unfold wants Healing.wanted
    cases (db.topic? pair.1).isSome <;> cases db.stateOf pair.1 <;> rfl
  · rfl

theorem ails_healed (q : String × String) : (db.healed pair).ails q =
    if q = pair then false else db.ails q := by
  unfold ails
  rw [wants_healed, present_healed]
  split
  · simp
  · rfl

theorem healed_healed : (db.healed pair).healed pair = db.healed pair := by
  have hwell : (db.healed pair).ails pair = false := by rw [ails_healed, if_pos rfl]
  generalize db.healed pair = db' at hwell ⊢
  simp [healed, hwell]

end

/-! ## Many heals -/

/-- The same but for the numbers and the places of memberships. -/
structure Shuffled (db db' : Database) : Prop where
  topics : db'.topics = db.topics
  subscriptions : db'.subscriptions = db.subscriptions
  members : (db.members.map (·.unnumbered)).Perm (db'.members.map (·.unnumbered))

theorem present_unnumbered {db : Database} {pair : String × String} : db.present pair = true ↔
    ∃ row ∈ db.members.map (·.unnumbered), (row.topic, row.subscriber) = pair := by
  rw [present_iff]
  constructor
  · rintro ⟨row, hr, he⟩
    exact ⟨_, List.mem_map_of_mem hr, he⟩
  · rintro ⟨_, hr, he⟩
    obtain ⟨row, hrow, rfl⟩ := List.mem_map.mp hr
    exact ⟨row, hrow, he⟩

namespace Shuffled

theorem refl (db : Database) : db.Shuffled db := ⟨rfl, rfl, .refl _⟩

theorem trans {db db' db'' : Database} (h : db.Shuffled db') (h' : db'.Shuffled db'') :
    db.Shuffled db'' :=
  ⟨h'.topics.trans h.topics, h'.subscriptions.trans h.subscriptions, h.members.trans h'.members⟩

section
variable {db db' : Database} (h : db.Shuffled db') (pair : String × String)

include h

theorem present : db'.present pair = db.present pair := by
  rw [Bool.eq_iff_iff, present_unnumbered, present_unnumbered]
  exact exists_congr fun row => and_congr_left fun _ => h.members.symm.mem_iff

theorem ails : db'.ails pair = db.ails pair := by
  unfold Database.ails wants
  rw [h.present, topic?_congr h.topics, stateOf_congr h.subscriptions]

theorem healed : (db.healed pair).Shuffled (db'.healed pair) where
  topics := by rw [healed_topics, healed_topics, h.topics]
  subscriptions := by rw [healed_subscriptions, healed_subscriptions, h.subscriptions]
  members := by
    have hkeeps : db'.keeps pair = db.keeps pair := by
      funext row
      simp only [keeps, h.ails]
    have hadded : db'.added pair = db.added pair := by
      simp only [added, h.ails, h.present, requestOf, subscription?, h.subscriptions]
    rw [healed_members, healed_members, hkeeps, hadded]
    exact (h.members.filter _).append_right _

end

end Shuffled

theorem healed_comm (db : Database) {p q : String × String} (hne : p ≠ q) :
    ((db.healed p).healed q).Shuffled ((db.healed q).healed p) := by
  have hkeeps : ∀ {p q}, p ≠ q → (db.healed p).keeps q = db.keeps q := by
    intro p q hne
    funext row
    simp only [keeps, ails_healed, if_neg hne.symm]
  have hadded : ∀ {p q}, p ≠ q → (db.healed p).added q = db.added q := by
    intro p q hne
    simp only [added, ails_healed, present_healed, if_neg hne.symm, requestOf, subscription?,
      healed_subscriptions]
  -- What one heal adds is not what the other takes away.
  have hkept : ∀ {p q}, p ≠ q → (db.added p).filter (db.keeps q) = db.added p := by
    intro p q hne
    unfold added
    split
    · simp [keeps, hne]
    · rfl
  refine ⟨?_, ?_, ?_⟩
  · simp only [healed_topics]
  · simp only [healed_subscriptions]
  · simp only [healed_members, hkeeps hne, hkeeps hne.symm, hadded hne, hadded hne.symm,
      List.filter_append, hkept hne, hkept hne.symm, List.append_assoc, List.filter_filter]
    rw [show (fun row => db.keeps q row && db.keeps p row) = fun row => db.keeps p row && db.keeps q row
      from funext fun row => Bool.and_comm ..]
    exact List.perm_append_comm.append_left _

def course (db : Database) : List (String × String) → List ((String × String) × Bool) × Database
  | [] => ([], db)
  | pair :: pairs =>
    let rest := (db.healed pair).course pairs
    ((pair, db.ails pair) :: rest.1, rest.2)

theorem Shuffled.course {db db' : Database} (h : db.Shuffled db') (pairs : List (String × String)) :
    (db.course pairs).1 = (db'.course pairs).1 ∧
      (db.course pairs).2.Shuffled (db'.course pairs).2 := by
  induction pairs generalizing db db' with
  | nil => exact ⟨rfl, h⟩
  | cons pair pairs ih =>
    obtain ⟨hanswers, hleft⟩ := ih (h.healed pair)
    refine ⟨?_, hleft⟩
    simp only [Database.course, hanswers, h.ails]

theorem course_perm {pairs pairs' : List (String × String)} (hp : pairs.Perm pairs') :
    ∀ db : Database, (db.course pairs).1.Perm (db.course pairs').1 ∧
      (db.course pairs).2.Shuffled (db.course pairs').2 := by
  induction hp with
  | nil => exact fun db => ⟨.refl _, .refl _⟩
  | cons pair _ ih =>
    intro db
    obtain ⟨hanswers, hleft⟩ := ih (db.healed pair)
    exact ⟨hanswers.cons _, hleft⟩
  | swap p q pairs =>
    intro db
    by_cases hpq : q = p
    · rw [hpq]
      exact ⟨.refl _, .refl _⟩
    · obtain ⟨hanswers, hleft⟩ := (db.healed_comm hpq).course pairs
      refine ⟨?_, hleft⟩
      simp only [course, ails_healed, if_neg hpq, if_neg (Ne.symm hpq), hanswers]
      exact .swap ..
  | trans _ _ ih ih' =>
    intro db
    exact ⟨(ih db).1.trans (ih' db).1, (ih db).2.trans (ih' db).2⟩

end Database

/-! ## On a store -/

/-- What a heal does, by what it finds. -/
structure Healing.Healed (topic subscriber : String) (changed : Bool) (db db' : Database) : Prop where
  leaves : db.topic? topic = none ∨ db.stateOf topic = .unsubscribed ∨ db.stateOf topic = .deprecated →
    db'.member? topic subscriber = none
  joins : (db.topic? topic).isSome → db.stateOf topic = .subscribed →
    ∃ row, db'.member? topic subscriber = some row ∧ (db.member? topic subscriber = some row ∨
      db.member? topic subscriber = none ∧ row.requestId = db.requestOf topic)
  waits : (db.topic? topic).isSome → (db.stateOf topic).isPending = true →
    db'.member? topic subscriber = db.member? topic subscriber
  answer : changed = true ↔
    (db'.member? topic subscriber).isSome ≠ (db.member? topic subscriber).isSome
  kept : changed = false → db' = db
  topics : db'.topics = db.topics
  subscriptions : db'.subscriptions = db.subscriptions
  beside : db'.beside topic subscriber = db.beside topic subscriber

theorem Database.member?_joined {db : Database} {pair : String × String}
    (h : db.member? pair.1 pair.2 = none) : (db.joined pair).member? pair.1 pair.2 =
      some ⟨db.lastMember + 1, pair.1, pair.2, Details.encodeTexts [], 0, db.requestOf pair.1⟩ := by
  unfold member? at h ⊢
  rw [joined, List.find?_append, h]
  simp

theorem Healing.healed_of (db : Database) (pair : String × String) :
    Healed pair.1 pair.2 (db.ails pair) db (db.healed pair) := by
  have hpresent := db.present_healed pair pair
  rw [if_pos rfl] at hpresent
  have hsame : db.ails pair = false → db.healed pair = db := fun hn => by simp [Database.healed, hn]
  have hails : db.ails pair = (db.wants pair != db.present pair) := rfl
  refine ⟨fun hgone => ?_, fun hreg hst => ?_, fun hreg hp => ?_, ?_, hsame, db.healed_topics _,
    db.healed_subscriptions _, db.beside_healed pair⟩
  · have hw : db.wants pair = false := by
      rcases hgone with ht | hst | hst <;> simp [Database.wants, wanted, *]
    simpa [Database.present, hw] using hpresent
  · have hw : db.wants pair = true := by simp [Database.wants, wanted, hreg, hst]
    cases hm : db.member? pair.1 pair.2 with
    | some row =>
      have hp : db.present pair = true := by simp [Database.present, hm]
      rw [hsame (by rw [hails, hw, hp]; rfl)]
      exact ⟨row, hm, .inl rfl⟩
    | none =>
      have hp : db.present pair = false := by simp [Database.present, hm]
      have hd : db.healed pair = db.joined pair := by simp [Database.healed, hails, hw, hp]
      exact ⟨_, hd ▸ Database.member?_joined hm, .inr ⟨rfl, rfl⟩⟩
  · have hw : db.wants pair = db.present pair := by
      unfold Database.wants wanted
      rw [hreg]
      cases hst : db.stateOf pair.1 <;> rw [hst] at hp <;> first | rfl | cases hp
    rw [hsame (by rw [hails, hw]; simp)]
  · change _ ↔ (db.healed pair).present pair ≠ db.present pair
    rw [hpresent, hails, bne_iff_ne]

namespace World

section
variable {w : World} {i : Nat} (hc : w.Calm i) {db db' : Database} (hd : w.committed? i = some db)
  {call : Call} {reply : Reply} (hr : call.operation.Returns db reply db')

include hc hd hr

theorem call_of_returns : (w.call i call.operation).2 = .ok reply ∧
    (w.call i call.operation).1.committed? i = some db' := by
  obtain ⟨hresult, hafter⟩ := call_of_calm hc hd call.operation
  rw [hr.alone] at hresult hafter
  exact ⟨hresult, hafter⟩

theorem turn_of_returns : (w.turn i (.quiet call)).2 = .ok reply ∧
    (w.turn i (.quiet call)).1.committed? i = some db' ∧ (w.turn i (.quiet call)).1.Calm i := by
  obtain ⟨h, hh, he, hcalm⟩ := hc
  have hh' := handle_refusing hh []
  have hc' : (w.refusing i []).Calm i :=
    ⟨_, hh', he, hcalm.working, rfl, hcalm.blocked, hcalm.observed, hcalm.mayWrite⟩
  have hd' : (w.refusing i []).committed? i = some db := by
    rw [committed?_of_handle hh']
    rwa [committed?_of_handle hh] at hd
  obtain ⟨hresult, hafter⟩ := call_of_returns hc' hd' hr
  exact ⟨hresult, hafter, calm_call hc' call⟩

end

def healings (pairs : List (String × String)) : List Turn :=
  pairs.map fun pair => .quiet (.heal pair.1 pair.2)

theorem healings_course {w : World} {i : Nat} (hc : w.Calm i) {db : Database}
    (hd : w.committed? i = some db) (h : db.Reached) {pairs : List (String × String)}
    (hs : ∀ pair ∈ pairs, pair.2 ≠ "") (hroom : db.lastMember + pairs.length ≤ Database.lastId) :
    (w.history i (healings pairs)).map (fun m => (m.call, m.result)) =
        (db.course pairs).1.map (fun a => (.heal a.1.1 a.1.2, .ok (.truth a.2))) ∧
      (w.run i (healings pairs)).committed? i = some (db.course pairs).2 := by
  induction pairs generalizing w db with
  | nil => exact ⟨rfl, hd⟩
  | cons pair pairs ih =>
    have hlen : (pair :: pairs).length = pairs.length + 1 := rfl
    have hr := Healing.call_returns h.sound pair (hs pair (.head _)) fun _ _ => by omega
    obtain ⟨hresult, hafter, hcalm⟩ := turn_of_returns hc hd hr
    have hlast := db.lastMember_healed pair
    obtain ⟨hrest, hleft⟩ := ih hcalm hafter (h.returns hr)
      (fun pair hp => hs pair (.tail _ hp)) (by omega)
    refine ⟨?_, hleft⟩
    change (_, (w.turn i (.quiet (.heal pair.1 pair.2))).2) :: _ = _
    rw [hresult]
    exact congrArg _ hrest

/-- A heal makes a membership what its topic and its subscription call for, says whether it was not,
and touches nothing else. Done again, it finds nothing to do. Where many memberships are healed, the
order makes no difference but for numbers and places, to what is left and to what each is answered. -/
theorem heal_mends {w : World} {i : Nat} (hc : w.Calm i) {db : Database}
    (hd : w.committed? i = some db) (h : db.Reached) (topic : String) {subscriber : String}
    (hs : subscriber ≠ "") (hroom : db.lastMember < Database.lastId) :
    let heal := (Call.heal topic subscriber).operation
    let w' := (w.call i heal).1
    (∃ changed db', (w.call i heal).2 = .ok (.truth changed) ∧ w'.committed? i = some db' ∧
      Healing.Healed topic subscriber changed db db' ∧
      (w'.call i heal).2 = .ok (.truth false) ∧ (w'.call i heal).1.committed? i = some db') ∧
    ∀ pairs pairs' : List (String × String), (∀ pair ∈ pairs, pair.2 ≠ "") →
      db.lastMember + pairs.length ≤ Database.lastId → pairs.Perm pairs' →
      ∃ d d', (w.run i (healings pairs)).committed? i = some d ∧
        (w.run i (healings pairs')).committed? i = some d' ∧ d.Shuffled d' ∧
        ((w.history i (healings pairs)).map fun m => (m.call, m.result)).Perm
          ((w.history i (healings pairs')).map fun m => (m.call, m.result)) ∧
        ∀ m ∈ w.history i (healings pairs), ∃ changed, m.result = .ok (.truth changed) := by
  intro heal w'
  refine ⟨?_, fun pairs pairs' hs hroom hp => ?_⟩
  · let pair := (topic, subscriber)
    obtain ⟨hresult, hafter⟩ := call_of_returns hc hd
      (Healing.call_returns h.sound pair hs fun _ _ => hroom)
    refine ⟨_, _, hresult, hafter, Healing.healed_of db pair, ?_⟩
    have hwell : (db.healed pair).ails pair = false := by rw [Database.ails_healed, if_pos rfl]
    have hwants : (db.healed pair).wants pair = (db.healed pair).present pair := by
      simpa [Database.ails] using hwell
    have hreached : (db.healed pair).Reached :=
      h.returns (Healing.call_returns h.sound pair hs fun _ _ => hroom)
    -- There is nothing left to add, so that this time no number is needed.
    have hr := Healing.call_returns hreached.sound pair hs fun hw hn => by
      rw [hwants, hn] at hw
      cases hw
    rw [hwell, Database.healed_healed] at hr
    exact call_of_returns (calm_call hc _) hafter hr
  · have hs' : ∀ pair ∈ pairs', pair.2 ≠ "" := fun pair hq => hs pair (hp.mem_iff.mpr hq)
    obtain ⟨hanswers, hleft⟩ := Database.course_perm hp db
    obtain ⟨hm, hd₁⟩ := healings_course hc hd h hs hroom
    obtain ⟨hm', hd₂⟩ := healings_course hc hd h hs' (hp.length_eq ▸ hroom)
    refine ⟨_, _, hd₁, hd₂, hleft, ?_, fun m hmem => ?_⟩
    · rw [hm, hm']
      exact hanswers.map _
    · have hin := List.mem_map_of_mem (f := fun m : Moment => (m.call, m.result)) hmem
      rw [hm] at hin
      obtain ⟨a, -, he⟩ := List.mem_map.mp hin
      exact ⟨a.2, (congrArg Prod.snd he).symm⟩

/-- A topic is subscribed and lacks a member, another is not there and has one. -/
def uneven : List Turn :=
  [⟨[], .registerTopic "t" "p" none (.plain true)⟩, ⟨[], .requestSubscribe "t" "r"⟩,
    ⟨[], .handleResponse (some "r") true "s" (.list []) (some 0)⟩,
    ⟨[], .addSubscriber "u" "x" (.list []) (some 0) none⟩]

theorem heal_mends_uneven :
    let w := (lone .fresh []).run 0 uneven
    let heal := (Call.heal "t" "x").operation
    ∃ db db', w.committed? 0 = some db ∧ (w.call 0 heal).1.committed? 0 = some db' ∧
      (w.call 0 heal).2 = .ok (.truth true) ∧ Healing.Healed "t" "x" true db db' ∧
      (∃ row, db'.member? "t" "x" = some row ∧ row.requestId = some "r") ∧
      ∃ d d', (w.run 0 (healings [("t", "x"), ("u", "x")])).committed? 0 = some d ∧
        (w.run 0 (healings [("u", "x"), ("t", "x")])).committed? 0 = some d' ∧ d.Shuffled d' ∧
        d.members.map (·.id) = [1, 3] ∧ d'.members.map (·.id) = [1, 3] := by
  intro w heal
  obtain ⟨-, db, hd, hr⟩ := reached_run uneven
  have hroom : db.lastMember + 2 ≤ Database.lastId := by
    rw [← committed_of_committed? hd]
    decide +kernel
  obtain ⟨⟨changed, db', hresult, hafter, hhealed, -, -⟩, horder⟩ :=
    heal_mends (run_calm (lone_calm .fresh) (by decide)) hd hr "t" (by decide : "x" ≠ "") (by omega)
  obtain ⟨d, d', hd₁, hd₂, hleft, -, -⟩ :=
    horder [("t", "x"), ("u", "x")] [("u", "x"), ("t", "x")] (by decide) hroom (.swap ..)
  have htrue : (w.call 0 heal).2 = .ok (.truth true) := by rfl
  cases hresult.symm.trans htrue
  refine ⟨db, db', hd, hafter, htrue, hhealed, ?_, d, d', hd₁, hd₂, hleft, ?_, ?_⟩
  · rw [← committed_of_committed? hafter]
    exact ⟨⟨3, "t", "x", "[]", 0, some "r"⟩, by decide +kernel, rfl⟩
  · rw [← committed_of_committed? hd₁]
    decide +kernel
  · rw [← committed_of_committed? hd₂]
    decide +kernel

end World

end PubSub
