import PubSub.Proofs.Confirmations

/-!
# The roster

The memberships of a store as a list, without numbers and with their details as texts.
Who joins comes last, and who is there already stays as they are. Every call that returns
does to the table what `Roster.step` does to the list, and is answered from the list.
-/

namespace PubSub

structure Member where
  topic : String
  subscriber : String
  details : List String
  expiry : Int
  requestId : Option String
  deriving DecidableEq

abbrev Roster := List Member

/-- What a store knows of its topics. -/
structure Setting where
  registered : String → Bool
  state : String → State
  request : String → Option String
  carrier : Option String → Option String

def Details.given (d : Details) : List String := d.texts?.toOption.getD []

namespace Roster

section
variable (m : Roster) (s : Setting) (topic subscriber : String)

def has : Bool := m.any fun e => e.topic = topic ∧ e.subscriber = subscriber

def join (e : Member) : Roster := if m.has e.topic e.subscriber then m else m ++ [e]

/-- Without an expiry nobody joins. -/
def add (details : Details) (expiry : Option Int) (requestId : Option String) : Roster :=
  match expiry with
  | some expiry => m.join ⟨topic, subscriber, details.given, expiry, requestId⟩
  | none => m

def leave : Roster := m.filter fun e => ¬(e.topic = topic ∧ e.subscriber = subscriber)

def clear : Roster := m.filter (·.topic ≠ topic)

def confirm (details : Details) (expiry : Option Int) : Roster :=
  match s.state topic with
  | .subscribePending => m.add topic subscriber details expiry (s.request topic)
  | .unsubscribePending => m.leave topic subscriber
  | _ => m

def heal : Roster :=
  if s.registered topic then
    match s.state topic with
    | .subscribed => m.add topic subscriber .empty (some 0) (s.request topic)
    | .unsubscribed | .deprecated => m.leave topic subscriber
    | _ => m
  else m.leave topic subscriber

end

/-- What a call makes of the list. -/
def step (m : Roster) (s : Setting) : Call → Roster
  | .addSubscriber topic subscriber details expiry requestId =>
    m.add topic subscriber details expiry requestId
  | .removeSubscriber topic subscriber => m.leave topic subscriber
  | .removeAllForTopic topic | .deregisterTopic topic => m.clear topic
  | .applyConfirmation topic subscriber details expiry => m.confirm s topic subscriber details expiry
  | .handleResponse requestId true subscriber details expiry =>
    match s.carrier requestId with
    | some topic => m.confirm s topic subscriber details expiry
    | none => m
  | .heal topic subscriber => m.heal s topic subscriber
  | _ => m

end Roster

/-! ## What callers read -/

def MemberRecord.unnumbered (record : MemberRecord) : MemberRecord := { record with id := 0 }

def Member.record (e : Member) : MemberRecord :=
  ⟨0, e.topic, e.subscriber, e.details.map .text, e.expiry, e.requestId⟩

namespace Roster

/-- The records are those of the list, in its order, with ascending numbers. -/
def Listed (m : Roster) (records : List MemberRecord) : Prop :=
  records.map (·.unnumbered) = m.map Member.record ∧ (records.map (·.id)).Pairwise (· < ·)

def Answers (m : Roster) : Call → Reply → Prop
  | .addSubscriber topic subscriber _ expiry _, reply =>
    reply = .truth (expiry.isSome && !m.has topic subscriber)
  | .removeSubscriber topic subscriber, reply => reply = .truth (m.has topic subscriber)
  | .removeAllForTopic topic, reply => reply = .number (m.countP (·.topic = topic))
  | .listSubscribers topic, reply =>
    reply = .names ((m.filter (·.topic = topic)).map (·.subscriber))
  | .listTopicsOf subscriber, reply =>
    reply = .names ((m.filter (·.subscriber = subscriber)).map (·.topic))
  | .firstSubscriber topic, reply => ∃ record, reply = .member record ∧
    record.map (·.unnumbered) = (m.filter (·.topic = topic)).head?.map Member.record
  | .getSubscriber topic subscriber, reply => ∃ record, reply = .member record ∧
    record.map (·.unnumbered) =
      (m.find? fun e => e.topic = topic ∧ e.subscriber = subscriber).map Member.record
  | .isSubscribed topic subscriber, reply => reply = .truth (m.has topic subscriber)
  | .fetchByTopic topic, reply => ∃ records, reply = .members records ∧
    Listed (m.filter (·.topic = topic)) records
  | .fetchBySubscriber subscriber, reply => ∃ records, reply = .members records ∧
    Listed (m.filter (·.subscriber = subscriber)) records
  | .allMembers, reply => ∃ records, reply = .members records ∧ m.Listed records
  | .countSubscribers, reply => reply = .number m.length
  | _, _ => True

end Roster

/-! ## Tables and lists -/

def MemberRow.unnumbered (row : MemberRow) : MemberRow := { row with id := 0 }

def Member.row (e : Member) : MemberRow :=
  ⟨0, e.topic, e.subscriber, Details.encodeTexts e.details, e.expiry, e.requestId⟩

/-- Some rows are those of a list, in its order. -/
def Roster.Rows (m : Roster) (rows : List MemberRow) : Prop :=
  rows.map (·.unnumbered) = m.map Member.row

namespace Roster

section
variable {m : Roster} {rows : List MemberRow} (h : m.Rows rows)

include h

theorem Rows.filter {p : MemberRow → Bool} {q : Member → Bool}
    (hp : ∀ row : MemberRow, p row.unnumbered = p row) (hq : ∀ e : Member, p e.row = q e) :
    Rows (m.filter q) (rows.filter p) := by
  have hp' : (p ∘ fun row : MemberRow => row.unnumbered) = p := funext hp
  have hq' : (p ∘ Member.row) = q := funext hq
  unfold Rows at *
  rw [← hp', ← List.filter_map, h, List.filter_map, hq']

theorem Rows.map {α : Type} {f : MemberRow → α} {g : Member → α}
    (hf : ∀ row : MemberRow, f row.unnumbered = f row) (hg : ∀ e : Member, f e.row = g e) :
    rows.map f = m.map g := by
  have hf' : (f ∘ fun row : MemberRow => row.unnumbered) = f := funext hf
  have hg' : (f ∘ Member.row) = g := funext hg
  unfold Rows at h
  rw [← hf', ← List.map_map, h, List.map_map, hg']

theorem Rows.any {p : MemberRow → Bool} {q : Member → Bool}
    (hp : ∀ row : MemberRow, p row.unnumbered = p row) (hq : ∀ e : Member, p e.row = q e) :
    rows.any p = m.any q := by
  have hp' : (p ∘ fun row : MemberRow => row.unnumbered) = p := funext hp
  have hq' : (p ∘ Member.row) = q := funext hq
  unfold Rows at h
  rw [← hp', ← List.any_map, h, List.any_map, hq']

theorem Rows.find? {p : MemberRow → Bool} {q : Member → Bool}
    (hp : ∀ row : MemberRow, p row.unnumbered = p row) (hq : ∀ e : Member, p e.row = q e) :
    (rows.find? p).map (·.unnumbered) = (m.find? q).map Member.row := by
  have hp' : (p ∘ fun row : MemberRow => row.unnumbered) = p := funext hp
  have hq' : (p ∘ Member.row) = q := funext hq
  unfold Rows at h
  rw [← hp', ← List.find?_map, h, List.find?_map, hq']

theorem Rows.length : rows.length = m.length := by
  simpa using congrArg List.length h

end

theorem record_of_row {row : MemberRow} {e : Member} (h : row.unnumbered = e.row) :
    ∃ record, row.record = .ok record ∧ record.unnumbered = e.record ∧ record.id = row.id := by
  obtain ⟨id, topic, subscriber, details, expiry, requestId⟩ := row
  simp only [MemberRow.unnumbered, Member.row, MemberRow.mk.injEq, true_and] at h
  obtain ⟨rfl, rfl, rfl, rfl, rfl⟩ := h
  exact ⟨_, MemberRow.record_eq rfl, rfl, rfl⟩

theorem Rows.records {m : Roster} {rows : List MemberRow} (h : m.Rows rows) :
    ∃ records, rows.mapM MemberRow.record = .ok records ∧
      records.map (·.unnumbered) = m.map Member.record ∧
        records.map (·.id) = rows.map (·.id) := by
  unfold Rows at h
  induction rows generalizing m with
  | nil =>
    have hm : m = [] := by simpa [eq_comm] using h
    exact ⟨[], rfl, by rw [hm]; rfl, rfl⟩
  | cons row rows ih =>
    cases m with
    | nil => cases h
    | cons e m =>
      rw [List.map_cons, List.map_cons, List.cons.injEq] at h
      obtain ⟨record, hrec, he, hid⟩ := record_of_row h.1
      obtain ⟨records, hall, hes, hids⟩ := ih h.2
      refine ⟨record :: records, ?_, ?_, ?_⟩
      · rw [List.mapM_cons, hrec, hall]
        rfl
      · rw [List.map_cons, List.map_cons, he, hes]
      · rw [List.map_cons, List.map_cons, hid, hids]

end Roster

/-- The members of a database are those of a list, and their numbers ascend. -/
structure Database.Mirrors (db : Database) (m : Roster) : Prop where
  rows : m.Rows db.members
  ascending : (db.members.map (·.id)).Pairwise (· < ·)
  below : ∀ row ∈ db.members, row.id ≤ db.lastMember

def Database.setting (db : Database) : Setting where
  registered topic := (db.topic? topic).isSome
  state := db.stateOf
  request := db.requestOf
  carrier requestId := (db.carrier? requestId).map (·.topic)

namespace Database.Mirrors

section
variable {db db' : Database} {m : Roster} (h : db.Mirrors m)

include h

theorem congr (hm : db'.members = db.members) (hl : db'.lastMember = db.lastMember) :
    db'.Mirrors m :=
  ⟨hm ▸ h.rows, hm ▸ h.ascending, by rw [hm, hl]; exact h.below⟩

theorem has (topic subscriber : String) :
    m.has topic subscriber = (db.member? topic subscriber).isSome := by
  rw [member?, List.isSome_find?]
  exact (h.rows.any (p := fun row => row.topic = topic ∧ row.subscriber = subscriber)
    (fun _ => rfl) fun _ => rfl).symm

theorem filter {p : MemberRow → Bool} {q : Member → Bool}
    (hp : ∀ row : MemberRow, p row.unnumbered = p row) (hq : ∀ e : Member, p e.row = q e) :
    ({ db with members := db.members.filter p } : Database).Mirrors (m.filter q) where
  rows := h.rows.filter hp hq
  ascending := h.ascending.sublist (List.filter_sublist.map _)
  below row hr := h.below row (List.mem_filter.mp hr).1

theorem dropMember (topic subscriber : String) :
    (db.dropMember topic subscriber).2.Mirrors (m.leave topic subscriber) :=
  h.filter (fun _ => rfl) fun _ => rfl

theorem dropMembers (topic : String) : (db.dropMembers topic).2.Mirrors (m.clear topic) :=
  h.filter (fun _ => rfl) fun _ => rfl

theorem addMember {topic subscriber : String} {details : Details} {expiry : Option Int}
    {requestId : Option String} {rows : Nat}
    (hrun : db.addMember ⟨topic, subscriber, Details.encodeTexts details.given, expiry, requestId⟩ =
      .ok (rows, db')) :
    db'.Mirrors (m.add topic subscriber details expiry requestId) ∧
      decide (0 < rows) = (expiry.isSome && !m.has topic subscriber) := by
  have hhas := h.has topic subscriber
  have hbelow : ∀ row ∈ db.members, row.id ≤ ((db.lastMember + 1 : Nat) : Int) := by
    intro row hr
    have := h.below row hr
    omega
  unfold Database.addMember at hrun
  split at hrun
  · cases hrun
  · cases expiry with
    | none =>
      cases hrun
      exact ⟨⟨h.rows, h.ascending, hbelow⟩, rfl⟩
    | some expiry =>
      simp only [Roster.add, Roster.join, hhas]
      cases hm : db.member? topic subscriber with
      | some row =>
        simp only [hm] at hrun
        cases hrun
        exact ⟨⟨h.rows, h.ascending, hbelow⟩, rfl⟩
      | none =>
        simp only [hm] at hrun
        cases hrun
        refine ⟨⟨?_, ?_, ?_⟩, rfl⟩
        · have hrows := h.rows
          unfold Roster.Rows at hrows ⊢
          rw [if_neg (by simp), List.map_append, List.map_append, hrows]
          rfl
        · rw [List.map_append, List.pairwise_append]
          refine ⟨h.ascending, by simp, ?_⟩
          intro a ha b hb
          obtain ⟨row, hr, rfl⟩ := List.mem_map.mp ha
          have hle := h.below row hr
          simp only [List.map_cons, List.map_nil, List.mem_singleton] at hb
          omega
        · intro row hr
          rcases List.mem_append.mp hr with hold | hnew
          · exact hbelow row hold
          · obtain rfl := List.mem_singleton.mp hnew
            exact Int.le_refl _

theorem dropMember_answer (topic subscriber : String) :
    decide (0 < (db.dropMember topic subscriber).1) = m.has topic subscriber := by
  rw [h.has, member?, List.isSome_find?]
  unfold Database.dropMember
  rw [Bool.eq_iff_iff]
  simp [List.countP_pos_iff]

theorem dropMembers_answer (topic : String) :
    (db.dropMembers topic).1 = m.countP (·.topic = topic) := by
  have hrows := h.rows.filter (p := fun row => row.topic = topic) (fun _ => rfl) fun _ => rfl
  unfold Database.dropMembers
  rw [List.countP_eq_length_filter, List.countP_eq_length_filter]
  exact hrows.length

end

end Database.Mirrors

/-! ## Queries -/

def Call.asksMembers : Call → Bool
  | .listSubscribers _ | .listTopicsOf _ | .firstSubscriber _ | .getSubscriber .. | .isSubscribed ..
  | .fetchByTopic _ | .fetchBySubscriber _ | .allMembers | .countSubscribers => true
  | _ => false

theorem Operation.returns_of_look {α β : Type} {op : Operation α} {table : Table}
    {view : Database → β} {f : β → Conclusion α} (hr : op.refusal = none)
    (hb : op.body = (Script.see table view).bind fun b => .done (f b)) {db : Database}
    (h : db.WellFormed) {a : α} (ha : (f (view db)).result = .ok a) : op.Returns db a db := by
  refine Operation.returns_iff.mpr ⟨hr, f (view db), ?_, ha⟩
  rw [hb, Script.eval_bind, Script.eval_see (h.has table)]
  rfl

theorem Operation.Returns.unique {α : Type} {op : Operation α} {db db₁ db₂ : Database} {a b : α}
    (h₁ : op.Returns db a db₁) (h₂ : op.Returns db b db₂) : a = b ∧ db₁ = db₂ := by
  have h := h₁.symm.trans h₂
  simpa using h

namespace Database.Mirrors

section
variable {db : Database} {m : Roster} (hm : db.Mirrors m) (h : db.WellFormed)

include hm h

theorem fetch_returns {p : MemberRow → Bool} {q : Member → Bool}
    (hp : ∀ row : MemberRow, p row.unnumbered = p row) (hq : ∀ e : Member, p e.row = q e) :
    ∃ records, (Membership.fetch p).Returns db records db ∧ Roster.Listed (m.filter q) records := by
  have hf := hm.filter hp hq
  obtain ⟨records, hall, hes, hids⟩ := hf.rows.records
  exact ⟨records, Operation.returns_of_look rfl rfl h hall, hes, hids ▸ hf.ascending⟩

theorem one_returns (op : Operation (Option MemberRecord)) {p : MemberRow → Bool} {q : Member → Bool}
    (hr : op.refusal = none)
    (hb : op.body = (Script.see .subscribers fun db => db.members.find? p).bind fun row =>
      .done (Membership.concludeOne row))
    (hp : ∀ row : MemberRow, p row.unnumbered = p row) (hq : ∀ e : Member, p e.row = q e) :
    ∃ record, op.Returns db record db ∧
      record.map (·.unnumbered) = (m.find? q).map Member.record := by
  have hrow := hm.rows.find? hp hq
  cases hf : db.members.find? p with
  | none =>
    rw [hf] at hrow
    refine ⟨none, Operation.returns_of_look hr hb h (by rw [hf]; rfl), ?_⟩
    cases he : m.find? q with
    | none => rfl
    | some e =>
      rw [he] at hrow
      cases hrow
  | some row =>
    rw [hf] at hrow
    cases he : m.find? q with
    | none =>
      rw [he] at hrow
      cases hrow
    | some e =>
      rw [he, Option.map_some, Option.map_some, Option.some.injEq] at hrow
      obtain ⟨record, hrec, hshow, -⟩ := Roster.record_of_row hrow
      refine ⟨some record, Operation.returns_of_look hr hb h ?_, by rw [Option.map_some, hshow]; rfl⟩
      rw [hf]
      simp [Membership.concludeOne, hrec, Except.map]

theorem query_answers {call : Call} (hc : call.asksMembers = true) :
    ∃ reply, call.operation.Returns db reply db ∧ m.Answers call reply := by
  cases call with
  | listSubscribers topic =>
    have hrows := hm.rows.filter (p := fun row => row.topic = topic) (fun _ => rfl) fun _ => rfl
    refine ⟨_, Operation.returns_map.mpr ⟨_, Operation.returns_of_look rfl rfl h rfl, rfl⟩, ?_⟩
    exact congrArg Reply.names (hrows.map (fun _ => rfl) fun _ => rfl)
  | listTopicsOf subscriber =>
    have hrows := hm.rows.filter (p := fun row => row.subscriber = subscriber) (fun _ => rfl)
      fun _ => rfl
    refine ⟨_, Operation.returns_map.mpr ⟨_, Operation.returns_of_look rfl rfl h rfl, rfl⟩, ?_⟩
    exact congrArg Reply.names (hrows.map (fun _ => rfl) fun _ => rfl)
  | firstSubscriber topic =>
    obtain ⟨record, hr, he⟩ := hm.one_returns h (Membership.first topic)
      (p := fun row => row.topic = topic) rfl rfl (fun _ => rfl) fun _ => rfl
    refine ⟨_, Operation.returns_map.mpr ⟨_, hr, rfl⟩, record, rfl, ?_⟩
    rw [List.head?_filter]
    exact he
  | getSubscriber topic subscriber =>
    obtain ⟨record, hr, he⟩ := hm.one_returns h (Membership.get topic subscriber)
      (p := fun row => row.topic = topic ∧ row.subscriber = subscriber) rfl rfl (fun _ => rfl)
      fun _ => rfl
    exact ⟨_, Operation.returns_map.mpr ⟨_, hr, rfl⟩, record, rfl, he⟩
  | isSubscribed topic subscriber =>
    obtain ⟨record, hr, he⟩ := hm.one_returns h (Membership.get topic subscriber)
      (p := fun row => row.topic = topic ∧ row.subscriber = subscriber) rfl rfl (fun _ => rfl)
      fun _ => rfl
    refine ⟨_, Operation.returns_map.mpr ⟨_, Operation.returns_map.mpr ⟨_, hr, rfl⟩, rfl⟩, ?_⟩
    have hsome := congrArg Option.isSome he
    rw [Option.isSome_map, Option.isSome_map, List.isSome_find?] at hsome
    exact congrArg Reply.truth hsome
  | fetchByTopic topic =>
    obtain ⟨records, hr, hl⟩ := hm.fetch_returns h (p := fun row => row.topic = topic)
      (fun _ => rfl) fun _ => rfl
    exact ⟨_, Operation.returns_map.mpr ⟨_, hr, rfl⟩, records, rfl, hl⟩
  | fetchBySubscriber subscriber =>
    obtain ⟨records, hr, hl⟩ := hm.fetch_returns h (p := fun row => row.subscriber = subscriber)
      (fun _ => rfl) fun _ => rfl
    exact ⟨_, Operation.returns_map.mpr ⟨_, hr, rfl⟩, records, rfl, hl⟩
  | allMembers =>
    obtain ⟨records, hr, hl⟩ := hm.fetch_returns h (p := fun _ => true) (q := fun _ => true)
      (fun _ => rfl) fun _ => rfl
    refine ⟨_, Operation.returns_map.mpr ⟨_, hr, rfl⟩, records, rfl, ?_⟩
    rwa [List.filter_true] at hl
  | countSubscribers =>
    refine ⟨_, Operation.returns_map.mpr ⟨_, Operation.returns_of_look rfl rfl h rfl, rfl⟩, ?_⟩
    exact congrArg (fun n : Nat => Reply.number n) hm.rows.length
  | _ => cases hc

end

end Database.Mirrors

end PubSub
