import PubSub.Proofs.Threads

/-!
# Tasks keep out of each other's transactions

Every routine is in one of three phases: outside, holding the lock, or inside a
transaction that it began. What it may do next depends on the phase
(`Thread.Obeys`). A machine is `Orderly` if its tasks are in such phases and only
the holder of the lock is not outside; every step keeps this, whatever task it
is of.
-/

namespace PubSub

variable {α β : Type}

/-! ## Phases -/

inductive Phase where
  | outside
  | holding
  | inside

namespace Thread

/-- What a task does in a phase, and does from then on, is what it may do. -/
def Obeys : Thread α → Phase → Prop
  | .finish _, p => p = .outside
  | .pause next, p => next.Obeys p
  | .spawn child next, p => child.Obeys .outside ∧ next.Obeys p
  | .enter next, p =>
    (p = .outside ∧ (next false).Obeys .outside) ∨ (p = .inside ∧ (next true).Obeys .inside)
  | .acquire next, p => p = .outside ∧ next.Obeys .holding
  | .begin next, p =>
    p = .holding ∧ (next none).Obeys .inside ∧ ∀ fault, (next (some fault)).Obeys .holding
  | .look _ next, p => p = .inside ∧ ∀ found, (next found).Obeys .inside
  | .write _ next, p => p = .inside ∧ ∀ result, (next result).Obeys .inside
  | .commit next, p => p = .inside ∧ ∀ fault, (next fault).Obeys .inside
  | .rollback next, p => p ≠ .outside ∧ next.Obeys p
  | .release next, p => p ≠ .outside ∧ next.Obeys .outside

theorem obeys_giveUp {next : Ending β → Thread α} (hn : ∀ e, (next e).Obeys .outside)
    (e : Ending β) {p : Phase} (hp : p ≠ .outside) : (giveUp next e).Obeys p :=
  ⟨hp, hp, hn _⟩

theorem obeys_close {next : Ending β → Thread α} (hn : ∀ e, (next e).Obeys .outside)
    (e : Ending β) : (close next e).Obeys .inside := by
  have hin : Phase.inside ≠ .outside := by simp
  cases e with
  | raised failure value => exact obeys_giveUp hn _ hin
  | returned value =>
    refine ⟨rfl, fun fault => ?_⟩
    cases fault with
    | none => exact ⟨hin, hn _⟩
    | some fault => exact obeys_giveUp hn _ hin

section
variable {body : (Ending β → Thread α) → Thread α}
  (hb : ∀ next, (∀ e, (next e).Obeys .inside) → (body next).Obeys .inside)

include hb

theorem obeys_own {next : Ending β → Thread α} (hn : ∀ e, (next e).Obeys .outside) :
    (own body next).Obeys .holding := by
  refine ⟨rfl, hb _ (obeys_close hn), fun fault => ?_⟩
  exact obeys_giveUp hn _ (by simp)

theorem obeys_transaction {next : Ending β → Thread α} {p : Phase} (hp : p ≠ .holding)
    (hn : ∀ e, (next e).Obeys p) : (transaction body next).Obeys p := by
  cases p with
  | outside => exact .inl ⟨rfl, rfl, obeys_own hb hn⟩
  | holding => exact absurd rfl hp
  | inside => exact .inr ⟨rfl, hb next hn⟩

end

end Thread

theorem Script.thread_obeys (s : Script β) {next : Ending β → Thread α}
    (hn : ∀ e, (next e).Obeys .inside) : (s.thread next).Obeys .inside := by
  induction s with
  | done value => exact hn _
  | fail failure => exact hn _
  | look table rest ih =>
    unfold Script.thread
    refine ⟨rfl, fun found => ?_⟩
    cases found with
    | ok db => exact ih db
    | error fault => exact hn _
  | write w rest ih =>
    unfold Script.thread
    refine ⟨rfl, fun result => ?_⟩
    cases result with
    | ok rows => exact ih rows
    | error failure => exact hn _
  | note n rest ih => exact ih

theorem Operation.thread_obeys (op : Operation β) {next : Except Failure β → Thread α} {p : Phase}
    (hp : p ≠ .holding) (hn : ∀ result, (next result).Obeys p) : (op.thread next).Obeys p := by
  unfold Operation.thread
  cases op.refusal with
  | some failure => exact hn _
  | none => exact Thread.obeys_transaction (fun _ => op.body.thread_obeys) hp fun e => hn _

theorem Routine.thread_obeys (r : Routine α) {next : Ending α → Thread α} {p : Phase}
    (hp : p ≠ .holding) (hn : ∀ e, (next e).Obeys p) : (r.thread next).Obeys p := by
  have hout : Phase.outside ≠ .holding := by simp
  induction r generalizing next p with
  | finish ending => exact hn ending
  | call op rest ih => exact op.thread_obeys hp fun result => ih result hp hn
  | block inner rest ihInner ihRest =>
    have hbody : ∀ next' : Ending α → Thread α, (∀ e, (next' e).Obeys .inside) →
        (inner.thread next').Obeys .inside := fun _ => ihInner (by simp)
    exact Thread.obeys_transaction hbody hp fun e => ihRest e hp hn
  | spawn child rest ihChild ihRest => exact ⟨ihChild hout fun e => rfl, ihRest hp hn⟩

theorem Routine.start_obeys (r : Routine α) : r.start.Obeys .outside :=
  r.thread_obeys (by simp) fun _ => rfl

/-! ## Pools -/

namespace Pool

variable {τ : Type}

@[simp] theorem put_self (pool : Pool τ) (k : TaskName) (n : Nat) (t : τ) :
    pool.put k n t k = some (n, t) :=
  Function.update_self ..

theorem put_of_ne (pool : Pool τ) {k k' : TaskName} (h : k' ≠ k) (n : Nat) (t : τ) :
    pool.put k n t k' = pool k' :=
  Function.update_of_ne h ..

theorem put_eq_some {pool : Pool τ} {k k' : TaskName} {n n' : Nat} {t t' : τ} :
    pool.put k n t k' = some (n', t') ↔
      (k' = k ∧ n' = n ∧ t' = t) ∨ (k' ≠ k ∧ pool k' = some (n', t')) := by
  by_cases h : k' = k
  · subst h
    simp [eq_comm]
  · simp [put_of_ne _ h, h]

theorem cons_ne (j : Nat) (k : TaskName) : j :: k ≠ k := by
  intro h
  have := congrArg List.length h
  simp at this

def count (pool : Pool τ) (k : TaskName) : Nat := ((pool k).map (·.1)).getD 0

theorem count_of_some {pool : Pool τ} {k : TaskName} {n : Nat} {t : τ} (h : pool k = some (n, t)) :
    pool.count k = n := by
  simp [count, h]

/-- Names of tasks that were not spawned yet are free. -/
def Fresh (pool : Pool τ) : Prop := ∀ k j, pool.count k ≤ j → pool (j :: k) = none

theorem fresh_first (t : τ) : (first t).Fresh := by
  intro k j _
  simp [first]

theorem Fresh.put {pool : Pool τ} (h : pool.Fresh) {k : TaskName} {n₀ n : Nat} {t₀ : τ}
    (hk : pool k = some (n₀, t₀)) (hn : n₀ ≤ n) (t : τ) : (pool.put k n t).Fresh := by
  intro k' j hj
  have hold : pool.count k' ≤ j := by
    by_cases hkk : k' = k
    · subst hkk
      rw [count_of_some (put_self ..)] at hj
      rw [count_of_some hk]
      omega
    · simpa [count, put_of_ne _ hkk] using hj
  have hfree := h k' j hold
  have hne : j :: k' ≠ k := by
    rintro rfl
    rw [hk] at hfree
    cases hfree
  rwa [put_of_ne _ hne]

theorem Fresh.putChild {pool : Pool τ} (h : pool.Fresh) {k : TaskName} {n j : Nat} {t₀ : τ}
    (hk : pool k = some (n, t₀)) (hj : j < n) (hfree : pool (j :: k) = none) (t : τ) :
    (pool.put (j :: k) 0 t).Fresh := by
  intro k' i hi
  have hold : pool.count k' ≤ i := by
    by_cases hkk : k' = j :: k
    · subst hkk
      simp [count, hfree]
    · simpa [count, put_of_ne _ hkk] using hi
  have hne : i :: k' ≠ j :: k := by
    intro he
    cases he
    rw [count_of_some hk] at hold
    omega
  rw [put_of_ne _ hne]
  exact h k' i hold

end Pool

/-! ## Orderly machines -/

namespace Machine

variable {m : Machine α} {k : TaskName}

def InPhase (m : Machine α) (k : TaskName) : Phase → Prop
  | .outside => m.holder ≠ some k
  | .holding => m.holder = some k
  | .inside => m.holder = some k ∧ m.Between k ∧ m.author = some k

structure Orderly (m : Machine α) : Prop where
  owner : m.owner = m.holder
  present : ∀ k, m.holder = some k → (m.threads k).isSome
  phase : ∀ k n t, m.threads k = some (n, t) → ∃ p, m.InPhase k p ∧ t.Obeys p
  between : ∀ k, m.Between k → m.holder = some k
  fresh : m.threads.Fresh

theorem InPhase.holder {p : Phase} (h : m.InPhase k p) (hp : p ≠ .outside) : m.holder = some k := by
  cases p with
  | outside => exact absurd rfl hp
  | holding => exact h
  | inside => exact h.1

theorem between_remember {d : Deed} {k' : TaskName} :
    (m.remember k' d).Between k ↔
      (k = k' ∧ d = .began) ∨ (m.Between k ∧ ¬(k = k' ∧ d = .left)) := by
  unfold Between remember
  constructor
  · rintro ⟨before, after, he, hl⟩
    simp only at he
    rcases List.eq_nil_or_concat after with rfl | ⟨after, last, rfl⟩
    · have hlast := List.append_inj_right' he rfl
      simp only [List.cons.injEq, Prod.mk.injEq, and_true] at hlast
      exact .inl ⟨hlast.1.symm, hlast.2⟩
    · rw [List.concat_eq_append] at he hl
      rw [← List.cons_append, ← List.append_assoc] at he
      obtain ⟨hinit, hlast⟩ := List.append_inj' he rfl
      cases hlast
      refine .inr ⟨⟨before, after, hinit, fun hm => hl (List.mem_append_left _ hm)⟩, ?_⟩
      rintro ⟨rfl, rfl⟩
      exact hl (by simp)
  · rintro (⟨rfl, rfl⟩ | ⟨⟨before, after, he, hl⟩, hn⟩)
    · exact ⟨m.deeds, [], rfl, by simp⟩
    · refine ⟨before, after ++ [(k', d)], by simp [he], ?_⟩
      intro hm
      rcases List.mem_append.mp hm with hm | hm
      · exact hl hm
      · simp only [List.mem_singleton, Prod.mk.injEq] at hm
        exact hn ⟨hm.1, hm.2.symm⟩

theorem author_began (m : Machine α) (k : TaskName) : (m.remember k .began).author = some k := by
  simp [author, doers, remember]

theorem orderly_start (c : Connection) (main : Routine α) : (start c main).Orderly := by
  refine ⟨rfl, fun k hk => ?_, fun k n t ht => ⟨.outside, ?_, ?_⟩, fun k hk => ?_,
    Pool.fresh_first _⟩
  · cases hk
  · simp [InPhase, start]
  · have hone : k = [] ∧ t = main.start := by
      by_cases hk : k = []
      · subst hk
        simp [start, Pool.first] at ht
        exact ⟨rfl, ht.2.symm⟩
      · simp [start, Pool.first, hk] at ht
    rw [hone.2]
    exact main.start_obeys
  · obtain ⟨before, after, he, -⟩ := hk
    simp [start] at he

/-! ### Steps -/

theorem Orderly.resume (h : m.Orderly) {n₀ n : Nat} {t₀ t : Thread α}
    (hk : m.threads k = some (n₀, t₀)) (hn : n₀ ≤ n)
    (ht : ∀ p, m.InPhase k p → t₀.Obeys p → t.Obeys p) (c : Connection) :
    ({ m with connection := c }.resume k n t).Orderly := by
  refine ⟨h.owner, fun k' hk' => ?_, fun k' n' t' ht' => ?_, h.between, h.fresh.put hk hn t⟩
  · by_cases hkk : k' = k
    · subst hkk
      simp [Machine.resume]
    · simpa [Machine.resume, Pool.put_of_ne _ hkk] using h.present k' hk'
  · rcases Pool.put_eq_some.mp ht' with ⟨rfl, rfl, rfl⟩ | ⟨-, hold⟩
    · obtain ⟨p, hp, ho⟩ := h.phase k' n₀ t₀ hk
      exact ⟨p, hp, ht p hp ho⟩
    · exact h.phase k' n' t' hold

theorem Orderly.statement (h : m.Orderly) {n : Nat} {t₀ : Thread α}
    (hk : m.threads k = some (n, t₀)) {γ : Type} {next : γ → Thread α}
    (hn : ∀ p, t₀.Obeys p → p = .inside ∧ ∀ x, (next x).Obeys .inside) (x : γ) (c : Connection) :
    ({ m with connection := c }.resume k n (next x)).Orderly := by
  refine h.resume hk (Nat.le_refl n) (fun p _ ho => ?_) c
  obtain ⟨rfl, hin⟩ := hn p ho
  exact hin x

theorem Orderly.spawned (h : m.Orderly) {n j : Nat} {t₀ t : Thread α}
    (hk : m.threads k = some (n, t₀)) (hj : j < n) (hfree : m.threads (j :: k) = none)
    (ht : t.Obeys .outside) : (m.resume (j :: k) 0 t).Orderly := by
  have hout : m.holder ≠ some (j :: k) := by
    intro hh
    have := h.present _ hh
    rw [hfree] at this
    cases this
  refine ⟨h.owner, fun k' hk' => ?_, fun k' n' t' ht' => ?_, h.between,
    h.fresh.putChild hk hj hfree t⟩
  · have hne : k' ≠ j :: k := by
      rintro rfl
      exact hout hk'
    simpa [Machine.resume, Pool.put_of_ne _ hne] using h.present k' hk'
  · rcases Pool.put_eq_some.mp ht' with ⟨rfl, rfl, rfl⟩ | ⟨-, hold⟩
    · exact ⟨.outside, hout, ht⟩
    · exact h.phase k' n' t' hold

theorem Orderly.outside (h : m.Orderly) {k' : TaskName} {n : Nat} {t : Thread α}
    (hk : m.threads k' = some (n, t)) (hout : m.holder ≠ some k') : t.Obeys .outside := by
  obtain ⟨p, hp, ho⟩ := h.phase k' n t hk
  cases p with
  | outside => exact ho
  | holding => exact absurd hp hout
  | inside => exact absurd hp.1 hout

theorem Orderly.granted (h : m.Orderly) (hfree : m.holder = none) {n : Nat} {next : Thread α}
    (hk : m.threads k = some (n, .acquire next)) (hn : next.Obeys .holding) :
    (({ m with holder := some k, owner := some k }.resume k n next).remember k .granted).Orderly := by
  refine ⟨rfl, fun k' hk' => ?_, fun k' n' t' ht' => ?_, fun k' hb => ?_,
    h.fresh.put hk (Nat.le_refl n) next⟩
  · cases hk'
    simp [Machine.resume, remember]
  · rcases Pool.put_eq_some.mp ht' with ⟨rfl, rfl, rfl⟩ | ⟨hne, hold⟩
    · exact ⟨.holding, rfl, hn⟩
    · refine ⟨.outside, fun he => hne (Option.some.inj he).symm, h.outside hold ?_⟩
      rw [hfree]
      simp
  · rcases between_remember.mp hb with ⟨-, hd⟩ | ⟨hb, -⟩
    · cases hd
    · have := h.between k' hb
      rw [hfree] at this
      cases this

theorem Orderly.began (h : m.Orderly) (hh : m.holder = some k) {n : Nat}
    {next : Option Fault → Thread α} (hk : m.threads k = some (n, .begin next))
    (hn : (next none).Obeys .inside) (c : Connection) :
    (({ m with connection := c }.resume k n (next none)).remember k .began).Orderly := by
  refine ⟨h.owner, fun k' hk' => ?_, fun k' n' t' ht' => ?_, fun k' hb => ?_,
    h.fresh.put hk (Nat.le_refl n) _⟩
  · cases hh.symm.trans hk'
    simp [Machine.resume, remember]
  · rcases Pool.put_eq_some.mp ht' with ⟨rfl, rfl, rfl⟩ | ⟨hne, hold⟩
    · exact ⟨.inside, ⟨hh, between_remember.mpr (.inl ⟨rfl, rfl⟩), author_began _ _⟩, hn⟩
    · have hout : m.holder ≠ some k' := by
        rw [hh]
        exact fun he => hne (Option.some.inj he).symm
      exact ⟨.outside, hout, h.outside hold hout⟩
  · rcases between_remember.mp hb with ⟨rfl, -⟩ | ⟨hb, -⟩
    · exact hh
    · exact h.between k' hb

theorem Orderly.released (h : m.Orderly) (hh : m.holder = some k) {n : Nat} {next : Thread α}
    (hk : m.threads k = some (n, .release next)) (hn : next.Obeys .outside) :
    (({ m with holder := none, owner := none }.resume k n next).remember k .left).Orderly := by
  refine ⟨rfl, fun k' hk' => ?_, fun k' n' t' ht' => ?_, fun k' hb => ?_,
    h.fresh.put hk (Nat.le_refl n) next⟩
  · cases hk'
  · refine ⟨.outside, by simp [InPhase, Machine.resume, remember], ?_⟩
    rcases Pool.put_eq_some.mp ht' with ⟨rfl, rfl, rfl⟩ | ⟨hne, hold⟩
    · exact hn
    · refine h.outside hold ?_
      rw [hh]
      exact fun he => hne (Option.some.inj he).symm
  · rcases between_remember.mp hb with ⟨-, hd⟩ | ⟨hb, hl⟩
    · cases hd
    · have hkk : k' = k := Option.some.inj ((h.between k' hb).symm.trans hh)
      exact absurd ⟨hkk, rfl⟩ hl

theorem Orderly.step (h : m.Orderly) (k : TaskName) : (m.step k).Orderly := by
  cases hk : m.threads k with
  | none => simpa [Machine.step, hk] using h
  | some entry =>
    obtain ⟨n, t⟩ := entry
    obtain ⟨p, hp, ho⟩ := h.phase k n t hk
    cases t with
    | finish ending => simpa [Machine.step, hk] using h
    | pause next =>
      simp only [Machine.step, hk]
      exact h.resume hk (Nat.le_refl n) (t := next) (fun _ _ ho => ho) m.connection
    | spawn child next =>
      simp only [Machine.step, hk]
      have hm := h.resume hk (Nat.le_succ n) (t := next) (fun _ _ ho => ho.2) m.connection
      have hk' : (m.resume k (n + 1) next).threads k = some (n + 1, next) := Pool.put_self ..
      refine hm.spawned hk' (Nat.lt_succ_self n) ?_ ho.1
      have hfree := h.fresh k n (Nat.le_of_eq (Pool.count_of_some hk))
      simpa [Machine.resume, Pool.put_of_ne _ (Pool.cons_ne n k)] using hfree
    | enter next =>
      simp only [Machine.step, hk]
      refine h.resume hk (Nat.le_refl n) (fun p hp ho => ?_) m.connection
      -- The owner is the holder of the lock, and so the test tells the phase.
      rcases ho with ⟨rfl, ho⟩ | ⟨rfl, ho⟩
      · have hout : ¬m.owner = some k := by
          rw [h.owner]
          exact hp
        rwa [decide_eq_false hout]
      · have hin : m.owner = some k := h.owner.trans hp.1
        rwa [decide_eq_true hin]
    | acquire next =>
      simp only [Machine.step, hk]
      cases hh : m.holder with
      | none => exact h.granted hh hk ho.2
      | some k' => simpa using h
    | begin next =>
      simp only [Machine.step, hk]
      cases hb : m.connection.open? with
      | mk fault c =>
        cases fault with
        | none =>
          have hh : m.holder = some k := hp.holder (by simp [ho.1])
          exact h.began hh hk ho.2.1 c
        | some fault =>
          refine h.resume hk (Nat.le_refl n) (fun p _ ho => ?_) c
          rw [ho.1]
          exact ho.2.2 fault
    | look table next =>
      simp only [Machine.step, hk]
      exact h.statement hk (fun _ ho => ho) _ _
    | write w next =>
      simp only [Machine.step, hk]
      exact h.statement hk (fun _ ho => ho) _ _
    | commit next =>
      simp only [Machine.step, hk]
      exact h.statement hk (fun _ ho => ho) _ _
    | rollback next =>
      simp only [Machine.step, hk]
      exact h.resume hk (Nat.le_refl n) (t := next) (fun p _ ho => ho.2) _
    | release next =>
      simp only [Machine.step, hk]
      exact h.released (hp.holder ho.1) hk ho.2

theorem Orderly.run (h : m.Orderly) (schedule : List TaskName) : (m.run schedule).Orderly := by
  induction schedule generalizing m with
  | nil => exact h
  | cons k schedule ih => exact ih (h.step k)

/-! ### What orderly machines keep apart -/

section
variable (h : m.Orderly)

include h

theorem Orderly.one_between {k' : TaskName} (hb : m.Between k) (hb' : m.Between k') : k = k' :=
  Option.some.inj ((h.between k hb).symm.trans (h.between k' hb'))

theorem Orderly.inside_of_statement (hd : m.Does Thread.isStatement k) :
    m.Between k ∧ m.author = some k := by
  obtain ⟨n, t, hk, ht⟩ := hd
  obtain ⟨p, hp, ho⟩ := h.phase k n t hk
  have hin : p = .inside := by
    cases t with
    | look table next => exact ho.1
    | write w next => exact ho.1
    | commit next => exact ho.1
    | _ => cases ht
  rw [hin] at hp
  exact hp.2

theorem Orderly.joins_iff (hd : m.Does Thread.isEntering k) : m.owner = some k ↔ m.Between k := by
  constructor
  · intro hown
    obtain ⟨n, t, hk, ht⟩ := hd
    obtain ⟨p, hp, ho⟩ := h.phase k n t hk
    cases t with
    | enter next =>
      rcases ho with ⟨rfl, -⟩ | ⟨rfl, -⟩
      · exact absurd (h.owner.symm.trans hown) hp
      · exact hp.2.1
    | _ => cases ht
  · intro hb
    exact h.owner.trans (h.between k hb)

/-- The holder of the lock is never at its end, and never waits. -/
theorem Orderly.holder_moves (hh : m.holder = some k) : m.CanMove k := by
  obtain ⟨⟨n, t⟩, hk⟩ := Option.isSome_iff_exists.mp (h.present k hh)
  obtain ⟨p, hp, ho⟩ := h.phase k n t hk
  have hne : p ≠ .outside := by
    rintro rfl
    exact hp hh
  refine ⟨n, t, hk, ?_, ?_⟩
  · cases t with
    | finish ending => exact absurd ho hne
    | _ => rfl
  · cases t with
    | acquire next => exact absurd ho.1 hne
    | _ => exact fun hw => by cases hw

theorem Orderly.free_of_finished (hf : m.Finished) : m.holder = none := by
  cases hh : m.holder with
  | none => rfl
  | some k =>
    obtain ⟨n, t, hk, he, -⟩ := h.holder_moves hh
    have hend := hf k (h.present k hh)
    simp [ended?, hk, he] at hend

/-- Tasks never wait for each other in a circle. -/
theorem Orderly.moves_of_not_finished (hf : ¬m.Finished) : ∃ k, m.CanMove k := by
  cases hh : m.holder with
  | some k => exact ⟨k, h.holder_moves hh⟩
  | none =>
    obtain ⟨k, hk⟩ := Classical.not_forall.mp hf
    obtain ⟨hsome, hend⟩ := Classical.not_imp.mp hk
    obtain ⟨⟨n, t⟩, hk⟩ := Option.isSome_iff_exists.mp hsome
    refine ⟨k, n, t, hk, ?_, fun _ => hh⟩
    simpa [ended?, hk] using hend

end

end Machine

end PubSub
