import PubSub.Proofs.Calls
import PubSub.Proofs.Handle

/-!
# Calls are atomic

A call outside every block changes its database as it would if nothing were
refused, or not at all; it does the former exactly if it returns. What an
earlier failure has left open is of no account.
-/

namespace PubSub

/-! ## Plans of refused statements -/

namespace Refusal

def nth (statement : Verb × Nat) : Refusal := ⟨statement.1, statement.2, 1⟩

def nthAfter (statement : Verb × Nat) (n : Nat) : Refusal :=
  if n ≤ statement.2 then ⟨statement.1, statement.2 - n, 1⟩ else ⟨statement.1, 0, 0⟩

theorem after_nthAfter (statement : Verb × Nat) (verb : Verb) (n : Nat) :
    (nthAfter statement n).after verb =
      nthAfter statement (if verb = statement.1 then n + 1 else n) := by
  obtain ⟨v, k⟩ := statement
  unfold nthAfter after
  by_cases hv : verb = v
  · subst hv
    rcases Nat.lt_trichotomy n k with h | h | h
    · simp [show n ≤ k by omega, show n + 1 ≤ k by omega, show 0 < k - n by omega, Nat.sub_add_eq]
    · simp [h]
    · simp [show ¬n ≤ k by omega, show ¬n + 1 ≤ k by omega]
  · have hv' : v ≠ verb := Ne.symm hv
    by_cases h : n ≤ k
    · simp [h, hv, hv']
    · simp [h, hv, hv']

theorem refuses_nthAfter (statement : Verb × Nat) (n : Nat) (verb : Verb) :
    (nthAfter statement n).refuses verb = true ↔ statement = (verb, n) := by
  obtain ⟨v, k⟩ := statement
  unfold nthAfter refuses
  by_cases h : n ≤ k
  · simp [h]
    omega
  · simp [h]
    omega

end Refusal

/-- Any set of statements can be refused: those of a plan are, and no others. -/
theorem Connection.refused_iff_mem {plan : List (Verb × Nat)} {c : Connection}
    (h : c.refusals = plan.map Refusal.nth) (asked : List Verb) (verb : Verb) :
    ((asked.foldl (fun c v => (c.ask v).2) c).ask verb).1 = true ↔
      (verb, asked.count verb) ∈ plan := by
  -- So many statements of each kind have been asked for already.
  have key : ∀ (asked : List Verb) (c : Connection) (n : Verb → Nat),
      c.refusals = plan.map (fun s => Refusal.nthAfter s (n s.1)) →
      (((asked.foldl (fun c v => (c.ask v).2) c).ask verb).1 = true ↔
        (verb, n verb + asked.count verb) ∈ plan) := by
    intro asked
    induction asked with
    | nil =>
      intro c n hc
      simp only [List.foldl_nil, ask, hc, List.any_map, List.any_eq_true, Function.comp,
        Refusal.refuses_nthAfter, List.count_nil, Nat.add_zero]
      constructor
      · rintro ⟨s, hs, he⟩
        have hv : s.1 = verb := congrArg Prod.fst he
        rw [hv] at he
        exact he ▸ hs
      · intro hm
        exact ⟨_, hm, rfl⟩
    | cons v asked ih =>
      intro c n hc
      rw [List.foldl_cons, ih _ fun u => if v = u then n u + 1 else n u]
      · rw [List.count_cons]
        by_cases hv : v = verb
        · simp [hv, Nat.add_right_comm, ← Nat.add_assoc]
        · simp [hv]
      · simp only [ask, hc, List.map_map, Function.comp_def, Refusal.after_nthAfter]
  have := key asked c (fun _ => 0) (by rw [h]; rfl)
  simpa using this

/-! ## Stores to call on -/

namespace World

/-- A world with one open store, whose database is in memory. -/
def lone (db : Database) (refusals : List Refusal) : World where
  files := []
  commons := []
  locked := []
  stores := [⟨[], some ⟨.own db, true, false, none, refusals, none, false⟩, 1, false, .startedAt 0⟩]
  clock := 0
  log := []

/-- A store is open and no block is running on it. -/
def Idle (w : World) (i : Nat) : Prop := ∃ h, w.handle? i = some h ∧ h.entered = false

/-- An idle store on which nothing stands in the way of a call. -/
def Calm (w : World) (i : Nat) : Prop :=
  ∃ h, w.handle? i = some h ∧ h.entered = false ∧ h.connection.Calm

theorem Calm.idle {w : World} {i : Nat} : w.Calm i → w.Idle i :=
  fun ⟨h, hh, he, _⟩ => ⟨h, hh, he⟩

theorem lone_handle (db : Database) (refusals : List Refusal) :
    (lone db refusals).handle? 0 = some ⟨1, false, ⟨db, none, false, true, none, refusals, none, false⟩⟩ :=
  rfl

theorem lone_calm (db : Database) : (lone db []).Calm 0 :=
  ⟨_, lone_handle db [], rfl, ⟨rfl, rfl, rfl, rfl, rfl⟩⟩

theorem committed?_of_handle {w : World} {i : Nat} {h : Handle} (hh : w.handle? i = some h) :
    w.committed? i = some h.connection.committed := by
  simp [committed?, hh]

theorem call_of_calm {w : World} {i : Nat} (hc : w.Calm i) {db : Database}
    (hd : w.committed? i = some db) {α : Type} (op : Operation α) :
    (w.call i op).2 = (op.alone db).1 ∧ (w.call i op).1.committed? i = some (op.alone db).2 := by
  obtain ⟨h, hh, he, hcalm⟩ := hc
  rw [committed?_of_handle hh, Option.some.injEq] at hd
  obtain ⟨hr, hh'⟩ := handle_call hh op
  obtain ⟨ht, hc'⟩ := Connection.transact_calm hcalm op
  have hp : h.perform op = h.connection.transact op := by simp [Handle.perform, he]
  rw [hp] at hr hh'
  rw [hd] at ht hc'
  exact ⟨hr.trans ht, by rw [committed?_of_handle hh', ← hc']⟩

end World

/-! ## Calls -/

theorem Connection.transact_call (c : Connection) (call : Call) :
    (∃ failure, (c.transact call.operation).result = .error failure ∧
      (c.transact call.operation).connection.committed = c.committed) ∨
    ∃ reply, (c.transact call.operation).result = .ok reply ∧
      call.operation.Returns c.committed reply
        (c.transact call.operation).connection.committed := by
  cases hr : call.operation.refusal with
  | some failure =>
    refine .inl ⟨failure, ?_⟩
    unfold transact
    rw [hr]
    exact ⟨rfl, rfl⟩
  | none =>
    rcases transact_cases c hr with ⟨failure, hf, hres, hu⟩ | ⟨last, db, hb, hres, hcom, -⟩
    · refine .inl ⟨failure.leaving, hres.trans (call.recover_fails ?_), hu.committed⟩
      exact hf.imp_right fun h => ⟨_, h⟩
    · cases hl : last.result with
      | error failure =>
        refine .inl ⟨failure, hres.trans hl, ?_⟩
        rw [hcom, Call.eval_of_error hb hl]
      | ok reply =>
        refine .inr ⟨reply, hres.trans hl, Operation.returns_iff.mpr ⟨hr, last, ?_, hl⟩⟩
        rw [hb, hcom]

theorem Connection.working_of_transact {c : Connection} {call : Call} {reply : Reply}
    (h : (c.transact call.operation).result = .ok reply) :
    c.working = none ∧ (c.transact call.operation).connection.working = none := by
  cases hr : call.operation.refusal with
  | some failure =>
    unfold transact at h
    rw [hr] at h
    cases h
  | none =>
    rcases transact_cases c hr with ⟨failure, hf, hres, -⟩ | ⟨last, db, -, -, -, -, d, ho, hx, hc⟩
    · rw [hres, call.recover_fails (hf.imp_right fun h => ⟨_, h⟩)] at h
      cases h
    · constructor
      · rcases open?_cases c with ⟨fault, d', ho', -⟩ | ⟨d', -, -, hw, -⟩
        · rw [ho'] at ho
          cases ho
        · exact hw
      · unfold transact
        simp only [hr, ho, hx]
        rcases commit_cases (d.exec call.operation.body).connection with
          ⟨fault, d', hc', -⟩ | ⟨db', d', hc', -, hw, -⟩
        · rw [hc'] at hc
          cases hc
        · simp only [hc']
          exact hw

theorem Connection.join_call {c : Connection} {db : Database} (hw : c.working = some db)
    {call : Call} {reply : Reply} (h : (c.join call.operation).result = .ok reply) :
    ∃ db', call.operation.Returns db reply db' ∧
      (c.join call.operation).connection.working = some db' := by
  cases hr : call.operation.refusal with
  | some failure =>
    unfold join at h
    rw [hr] at h
    cases h
  | none =>
    rw [join_connection c hr]
    unfold join at h
    simp only [hr] at h
    cases hx : (c.exec call.operation.body).result with
    | error failure =>
      simp only [hx, conclude] at h
      have hfail := exec_of_error hw hx
      rw [call.recovers (hfail.imp_right fun he => ⟨db, he⟩) (.inl rfl)] at h
      cases h
    | ok last =>
      simp only [hx, conclude] at h
      obtain ⟨db', hb, hw'⟩ := exec_of_ok hw hx
      exact ⟨db', Operation.returns_iff.mpr ⟨hr, last, hb, h⟩, hw'⟩

namespace World

/-- A call that fails leaves the committed database as it was. A call that returns, whatever was
refused and whatever had been left open, returns and commits what the same call does on a calm
store with the same database. -/
theorem call_atomic {w : World} {i : Nat} (hi : w.Idle i) (call : Call) :
    (w.call i call.operation).1.Idle i ∧
    (∀ failure, (w.call i call.operation).2 = .error failure →
      (w.call i call.operation).1.committed? i = w.committed? i) ∧
    ∀ reply, (w.call i call.operation).2 = .ok reply →
      ∀ (w₀ : World) (k : Nat), w₀.Calm k → w₀.committed? k = w.committed? i →
        (w₀.call k call.operation).2 = .ok reply ∧
          (w₀.call k call.operation).1.committed? k =
            (w.call i call.operation).1.committed? i := by
  obtain ⟨h, hh, he⟩ := hi
  obtain ⟨hr, hh'⟩ := handle_call hh call.operation
  have hp : h.perform call.operation = h.connection.transact call.operation := by
    simp [Handle.perform, he]
  rw [hp] at hr hh'
  have hbefore := committed?_of_handle hh
  have hafter := committed?_of_handle hh'
  refine ⟨⟨_, hh', he⟩, ?_, ?_⟩
  · intro failure hf
    rcases h.connection.transact_call call with ⟨_, -, hc⟩ | ⟨reply, ho, -⟩
    · rw [hafter, hbefore, ← hc]
    · rw [hr, ho] at hf
      cases hf
  · intro reply hok w₀ k hcalm hsame
    rcases h.connection.transact_call call with ⟨_, hf, -⟩ | ⟨reply', ho, ha⟩
    · rw [hr, hf] at hok
      cases hok
    · obtain ⟨hr₀, hc₀⟩ := call_of_calm hcalm (hsame.trans hbefore) call.operation
      rw [ha.alone] at hr₀ hc₀
      rw [hr, ho] at hok
      exact ⟨hr₀.trans hok, hc₀.trans hafter.symm⟩

/-- With its commit and its rollback refused, a registration leaves a transaction open. The next
call fails on that, and the one after it does what it does on a calm store. -/
theorem call_atomic_beside_leftover :
    let op := (Call.registerTopic "t" "p" none (.plain true)).operation
    let w₁ := ((lone .fresh [⟨.commit, 0, 1⟩, ⟨.rollback, 0, 1⟩]).call 0 op).1
    w₁.committed? 0 = some .fresh ∧ (w₁.call 0 op).1.committed? 0 = some .fresh ∧
      ((lone .fresh []).call 0 op).2 = .ok .done ∧
      ((lone .fresh []).call 0 op).1.committed? 0 =
        ((w₁.call 0 op).1.call 0 op).1.committed? 0 := by
  intro op w₁
  obtain ⟨hi₁, hf₁, -⟩ := call_atomic ⟨_, lone_handle .fresh [⟨.commit, 0, 1⟩, ⟨.rollback, 0, 1⟩], rfl⟩
    (.registerTopic "t" "p" none (.plain true))
  have h₁ : w₁.committed? 0 = some .fresh := hf₁ (.store (.transaction .refused)) rfl
  obtain ⟨hi₂, hf₂, -⟩ := call_atomic hi₁ (.registerTopic "t" "p" none (.plain true))
  have h₂ : (w₁.call 0 op).1.committed? 0 = some .fresh :=
    (hf₂ (.store (.transaction .nested)) rfl).trans h₁
  obtain ⟨-, -, hok⟩ := call_atomic hi₂ (.registerTopic "t" "p" none (.plain true))
  obtain ⟨hr, hc⟩ := hok .done rfl (lone .fresh []) 0 (lone_calm .fresh) h₂.symm
  exact ⟨h₁, h₂, hr, hc⟩

end World

end PubSub
