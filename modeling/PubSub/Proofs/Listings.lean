import Mathlib.Data.String.Basic
import PubSub.Proofs.ByteOrder
import PubSub.Proofs.Denials

/-!
# Lists of subscriptions

The queries that list topics select rows by their codes. Where every topic has one row at
the most and every code is that of a state, they find exactly the topics whose state is
asked for, once each and in order.
-/

namespace PubSub

/-- Sorted by names that are distinct, things stand in the strict order of the names. -/
theorem ascending_mergeSort {α : Type} {key : α → String} {l : List α} (h : (l.map key).Nodup) :
    ((l.mergeSort fun a b => key a ≤ key b).map key).Pairwise (· < ·) := by
  have hsorted : ((l.mergeSort fun a b => key a ≤ key b).map key).Pairwise (· ≤ ·) := by
    apply List.pairwise_map.mpr
    refine (List.pairwise_mergeSort ?_ ?_ l).imp of_decide_eq_true
    · intro a b c hab hbc
      simp only [decide_eq_true_iff] at hab hbc ⊢
      exact le_trans hab hbc
    · intro a b
      simpa using le_total (key a) (key b)
  have hperm := List.mergeSort_perm l fun a b => decide (key a ≤ key b)
  have hdistinct := (hperm.map key).nodup_iff.mpr h
  exact hsorted.imp₂ (fun a b hle hne => lt_of_le_of_ne hle hne) hdistinct

namespace Database

/-! ## Rows in some states -/

/-- The rows in one of some states, in the order of their topics. -/
def rowsIn (db : Database) (states : List State) : List SubscriptionRow :=
  (db.subscriptions.filter fun s => (states.map State.code).contains s.code).mergeSort
    Negotiation.byTopic

def topicsIn (db : Database) (states : List State) : List String :=
  (db.rowsIn states).map (·.topic)

theorem mem_rowsIn {db : Database} {states : List State} {row : SubscriptionRow} :
    row ∈ db.rowsIn states ↔ row ∈ db.subscriptions ∧ ∃ s ∈ states, row.code = s.code := by
  simp [rowsIn, List.mem_mergeSort, eq_comm]

theorem length_topicsIn (db : Database) (state : State) :
    (db.topicsIn [state]).length = db.subscriptions.countP (·.code = state.code) := by
  rw [topicsIn, List.length_map, rowsIn, List.length_mergeSort, List.countP_eq_length_filter]
  simp

def readRow (row : SubscriptionRow) : SubscriptionRecord :=
  ⟨row.topic, (State.ofCode? row.code).getD .unsubscribed, row.requestId⟩

section
variable {db : Database} (hk : db.Keyed)

include hk

theorem ascending_topicsIn (states : List State) : (db.topicsIn states).Pairwise (· < ·) := by
  refine ascending_mergeSort ?_
  exact List.Nodup.sublist (List.filter_sublist.map SubscriptionRow.topic) hk

theorem nodup_topicsIn (states : List State) : (db.topicsIn states).Nodup :=
  (ascending_topicsIn hk states).imp fun h => h.ne

theorem mem_topicsIn (h : db.WellFormed) {states : List State} (hu : .unsubscribed ∉ states)
    (topic : String) : topic ∈ db.topicsIn states ↔ db.stateOf topic ∈ states := by
  constructor
  · intro ht
    obtain ⟨row, hrow, rfl⟩ := List.mem_map.mp ht
    obtain ⟨hmem, s, hs, hcode⟩ := mem_rowsIn.mp hrow
    simpa [stateOf, subscription?_of_mem hk hmem, hcode, State.ofCode?_code] using hs
  · intro hs
    cases hrow : db.subscription? topic with
    | none =>
      simp only [stateOf, hrow] at hs
      exact absurd hs hu
    | some row =>
      have hmem := List.mem_of_find?_eq_some hrow
      have htopic : row.topic = topic := by simpa using List.find?_some hrow
      obtain ⟨s, hcode⟩ := h.codes row hmem
      simp only [stateOf, hrow, hcode, State.ofCode?_code, Option.getD_some] at hs
      exact List.mem_map.mpr ⟨row, mem_rowsIn.mpr ⟨hmem, s, hs, hcode⟩, htopic⟩

theorem record?_of_mem {row : SubscriptionRow} (hr : row ∈ db.subscriptions) :
    db.record? row.topic = some (readRow row) := by
  rw [record?, subscription?_of_mem hk hr]
  rfl

end

theorem readRow_ok {db : Database} {states : List State} {row : SubscriptionRow}
    (hr : row ∈ db.rowsIn states) : row.record = .ok (readRow row) := by
  obtain ⟨-, s, -, hcode⟩ := mem_rowsIn.mp hr
  simp [SubscriptionRow.record, readRow, hcode, State.ofCode?_code]

/-! ## Rows that stay -/

theorem topicsIn_of_dropped (db : Database) (state : State) :
    (db.dropInState state).2.topicsIn [state] = [] := by
  have hnone : (db.dropInState state).2.subscriptions.countP (·.code = state.code) = 0 := by
    simp [dropInState, List.countP_eq_zero]
  rw [← length_topicsIn] at hnone
  exact List.eq_nil_of_length_eq_zero hnone

theorem rowsIn_dropInState (db : Database) {state : State} {states : List State}
    (hs : state ∉ states) : (db.dropInState state).2.rowsIn states = db.rowsIn states := by
  unfold rowsIn dropInState
  rw [List.filter_filter]
  congr 1
  refine List.filter_congr fun row _ => ?_
  by_cases hc : row.code = state.code
  · have hno : ∀ s ∈ states, ¬s.code = state.code := by
      intro s hmem he
      exact hs (State.code_injective he ▸ hmem)
    simpa [hc] using hno
  · simp [hc]

end Database

/-! ## What the queries answer -/

theorem Operation.returns_query {α β : Type} {op : Operation α} (table : Table)
    (view : Database → β) (f : β → Conclusion α) (hn : op.refusal = none)
    (hb : op.body = (Script.see table view).bind fun b => .done (f b)) {db db' : Database} {a : α} :
    op.Returns db a db' ↔ db.has table = true ∧ (f (view db)).result = .ok a ∧ db' = db := by
  rw [returns_iff, hb]
  simp only [Script.eval_bind_ok, Script.eval_see_ok]
  constructor
  · rintro ⟨-, last, ⟨b, db₁, ⟨ht, rfl, rfl⟩, hd⟩, hl⟩
    cases hd
    exact ⟨ht, hl, rfl⟩
  · rintro ⟨ht, hl, rfl⟩
    exact ⟨hn, _, ⟨_, db', ⟨ht, rfl, rfl⟩, rfl⟩, hl⟩

namespace Directory

theorem count_returns {db db' : Database} {n : Nat} :
    count.Returns db n db' ↔ db.has .topics = true ∧ db.topics.length = n ∧ db' = db := by
  rw [Operation.returns_query .topics (·.topics.length) (.answer ·) rfl rfl]
  simp only [Conclusion.answer, Except.ok.injEq]

end Directory

namespace Membership

theorem count_returns {db db' : Database} {n : Nat} :
    count.Returns db n db' ↔ db.has .subscribers = true ∧ db.members.length = n ∧ db' = db := by
  rw [Operation.returns_query .subscribers (·.members.length) (.answer ·) rfl rfl]
  simp only [Conclusion.answer, Except.ok.injEq]

end Membership

namespace Negotiation

section
variable {db db' : Database}

theorem effective_returns {topics : List String} :
    effective.Returns db topics db' ↔
      db.has .subscriptions = true ∧ db.topicsIn State.effective = topics ∧ db' = db := by
  rw [Operation.returns_query .subscriptions (·.rowsIn State.effective)
    (fun rows => .answer (rows.map (·.topic))) rfl rfl]
  simp only [Conclusion.answer, Except.ok.injEq, Database.topicsIn]

theorem pending_returns {records : List SubscriptionRecord} :
    pending.Returns db records db' ↔ db.has .subscriptions = true ∧
      (db.rowsIn State.pending).mapM SubscriptionRow.record = .ok records ∧ db' = db :=
  Operation.returns_query .subscriptions (·.rowsIn State.pending)
    (fun rows => ⟨[], rows.mapM SubscriptionRow.record⟩) rfl rfl

theorem countDeprecated_returns {n : Nat} :
    countDeprecated.Returns db n db' ↔ db.has .subscriptions = true ∧
      (db.topicsIn [.deprecated]).length = n ∧ db' = db := by
  rw [Operation.returns_query .subscriptions
    (fun db => db.subscriptions.countP (·.code = State.deprecated.code)) (.answer ·) rfl rfl,
    Database.length_topicsIn]
  simp only [Conclusion.answer, Except.ok.injEq]

theorem mapM_record {rows : List SubscriptionRow}
    (hr : ∀ row ∈ rows, row.record = .ok (Database.readRow row)) :
    rows.mapM SubscriptionRow.record = .ok (rows.map Database.readRow) := by
  induction rows with
  | nil => rfl
  | cons row rows ih =>
    rw [List.mapM_cons, hr row List.mem_cons_self, ih fun r hm => hr r (List.mem_cons_of_mem row hm)]
    rfl

theorem pending_of_has (h : db.has .subscriptions = true) :
    pending.Returns db ((db.rowsIn State.pending).map Database.readRow) db :=
  pending_returns.mpr ⟨h, mapM_record fun _ => Database.readRow_ok, rfl⟩

theorem purgeDeprecated_of_wellFormed (h : db.WellFormed) :
    purgeDeprecated.Returns db (db.topicsIn [.deprecated]).length
      (db.dropInState .deprecated).2 := by
  have hw : (Script.issue (.dropInState .deprecated)).eval db =
      (.ok (db.dropInState .deprecated).1, (db.dropInState .deprecated).2) :=
    Script.eval_issue_ok.mpr ⟨h.has _, rfl, rfl⟩
  have hb : purgeDeprecated.body.eval db =
      (.ok (.answer (db.dropInState .deprecated).1
        [.event (.deprecatedPurged (db.dropInState .deprecated).1)]),
        (db.dropInState .deprecated).2) := by
    simp [purgeDeprecated, Script.eval_bind, hw]
  rw [Database.length_topicsIn]
  exact Operation.returns_iff.mpr ⟨rfl, _, hb, rfl⟩

end

end Negotiation

end PubSub
