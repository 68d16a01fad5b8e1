import Mathlib.Data.Nat.Find
import PubSub.Proofs.Tenures

/-!
# The lock is given back

A task that holds the lock is in the middle of a transaction (`Regular.busy`), and it leaves
in every run in which it goes on being scheduled (`Regular.leaves`): a thread from its BEGIN
on is a finite tree, and the others can neither take the lock away nor move the task. What
statements fail on the way makes no difference.
-/

namespace PubSub

variable {α β : Type}

/-! ## Tasks between two transactions -/

theorem Script.closes_of_thread (s : Script β) {next : Ending β → Thread α}
    (h : (s.thread next).Closes) : ∃ e, (next e).Closes := by
  induction s with
  | done value => exact ⟨_, h⟩
  | fail failure => exact ⟨_, h⟩
  | look table rest =>
    unfold Script.thread at h
    exact ⟨_, h (.error .idle)⟩
  | write w rest =>
    unfold Script.thread at h
    exact ⟨_, h (.error .oversized)⟩
  | note n rest ih => exact ih h

theorem Operation.closes_of_thread (op : Operation β) {next : Except Failure β → Thread α}
    (h : (op.thread next).Closes) : ∃ result, (next result).Closes := by
  unfold Operation.thread at h
  cases hr : op.refusal with
  | some failure =>
    rw [hr] at h
    exact ⟨_, h⟩
  | none =>
    rw [hr] at h
    obtain ⟨e, he⟩ := op.body.closes_of_thread h
    exact ⟨_, he⟩

theorem Routine.closes_of_thread (r : Routine α) {next : Ending α → Thread α}
    (h : (r.thread next).Closes) : ∃ e, (next e).Closes := by
  induction r generalizing next with
  | finish ending => exact ⟨_, h⟩
  | call op rest ih =>
    obtain ⟨result, hresult⟩ := op.closes_of_thread h
    exact ih result hresult
  | block inner rest ihInner ihRest =>
    obtain ⟨e, he⟩ := ihInner h
    exact ihRest e he
  | spawn child rest ihChild ihRest => exact ihRest h.2

theorem Routine.start_not_held (r : Routine α) : ¬r.start.Held := by
  have hout := r.start_obeys
  intro hheld
  cases hheld with
  | opening hopens =>
    obtain ⟨next, he, -⟩ := hopens.begins
    rw [he] at hout
    cases hout.1
  | closing hcloses =>
    obtain ⟨e, he⟩ := r.closes_of_thread hcloses
    exact he
  | leaving he =>
    rw [he] at hout
    exact hout.1 rfl

/-! ## The holder of the lock -/

namespace Machine

variable {m : Machine α} {k : TaskName} {n : Nat} {t : Thread α}

theorem Regular.run (h : m.Regular) (ho : m.Orderly) (schedule : List TaskName) :
    (m.run schedule).Regular := by
  induction schedule generalizing m with
  | nil => exact h
  | cons k schedule ih => exact ih (h.step ho k) (ho.step k)

theorem Regular.busy (h : m.Regular) {r : Routine α} (hk : m.threads k = some (n, r.start)) :
    m.holder ≠ some k :=
  fun hh => r.start_not_held (h.holding k n r.start hk hh)

theorem Orderly.threads_step (ho : m.Orderly) {j : TaskName} (hj : j ≠ k)
    (hk : (m.threads k).isSome) : (m.step j).threads k = m.threads k := by
  have hput : ∀ (m : Machine α) n t, (m.resume j n t).threads k = m.threads k :=
    fun m n t => Pool.put_of_ne _ hj.symm n t
  unfold Machine.step
  split
  · rfl
  · rfl
  · exact hput m _ _
  · rename_i n child next heq
    have hchild : k ≠ n :: j := by
      rintro rfl
      rw [ho.fresh j n (Nat.le_of_eq (Pool.count_of_some heq))] at hk
      cases hk
    exact (Pool.put_of_ne _ hchild 0 child).trans (hput m _ _)
  · exact hput m _ _
  · split
    · rfl
    · exact hput { m with holder := some j, owner := some j } _ _
  · simp only
    split <;> exact hput { m with connection := _ } _ _
  · exact hput { m with connection := _ } _ _
  · exact hput { m with connection := _ } _ _
  · exact hput { m with connection := _ } _ _
  · exact hput { m with connection := _ } _ _
  · exact hput { m with holder := none, owner := none } _ _

theorem Regular.holder_step (h : m.Regular) (ho : m.Orderly) (hh : m.holder = some k) {j : TaskName}
    (hj : j ≠ k) : (m.step j).holder = some k := by
  have hout : m.holder ≠ some j := by
    rw [hh]
    exact fun he => hj (Option.some.inj he).symm
  have hstep := h.outside_step ho hout
  generalize m.step j = m' at hstep
  cases hstep with
  | stays => exact hh
  | goes n ht => exact hh
  | spawns hk child rest => exact hh
  | gets n hfree hopens =>
    rw [hh] at hfree
    cases hfree

theorem Orderly.threads_run (ho : m.Orderly) (hk : (m.threads k).isSome) {schedule : List TaskName}
    (hs : ∀ j ∈ schedule, j ≠ k) : (m.run schedule).threads k = m.threads k := by
  induction schedule generalizing m with
  | nil => rfl
  | cons j schedule ih =>
    have hstep := ho.threads_step (hs j (by simp)) hk
    exact (ih (ho.step j) (hstep ▸ hk) fun i hi => hs i (by simp [hi])).trans hstep

theorem Regular.holder_run (h : m.Regular) (ho : m.Orderly) (hh : m.holder = some k)
    {schedule : List TaskName} (hs : ∀ j ∈ schedule, j ≠ k) : (m.run schedule).holder = some k := by
  induction schedule generalizing m with
  | nil => exact hh
  | cons j schedule ih =>
    exact ih (h.step ho j) (ho.step j) (h.holder_step ho hh (hs j (by simp)))
      fun i hi => hs i (by simp [hi])

def after (m : Machine α) (schedule : Nat → TaskName) (steps : Nat) : Machine α :=
  m.run ((List.range steps).map schedule)

theorem after_add (m : Machine α) (schedule : Nat → TaskName) (a b : Nat) :
    m.after schedule (a + b) = (m.after schedule a).after (fun i => schedule (a + i)) b := by
  simp only [after, run, List.range_add, List.map_append, List.map_map, List.foldl_append,
    Function.comp_def]

theorem after_one (m : Machine α) (schedule : Nat → TaskName) :
    m.after schedule 1 = m.step (schedule 0) := rfl

/-- A schedule in which a task is never forgotten. -/
def Recurs (schedule : Nat → TaskName) (k : TaskName) : Prop := ∀ n, ∃ i, n ≤ i ∧ schedule i = k

end Machine

namespace Thread

def GivesBack (t : Thread α) : Prop :=
  ∀ (m : Machine α) (k : TaskName) (n : Nat), m.Regular → m.Orderly → m.holder = some k →
    m.threads k = some (n, t) → ∀ schedule : Nat → TaskName, Machine.Recurs schedule k →
      ∃ steps, (m.after schedule steps).holder = none

theorem givesBack_of_step {t : Thread α}
    (hstep : ∀ (m : Machine α) (k : TaskName) (n : Nat), m.Orderly → m.holder = some k →
      m.threads k = some (n, t) → (m.step k).holder = none ∨
        ∃ n' t', (m.step k).holder = some k ∧ (m.step k).threads k = some (n', t') ∧ t'.GivesBack) :
    t.GivesBack := by
  intro m k n h ho hh hk schedule hs
  have hex : ∃ i, schedule i = k := (hs 0).imp fun i hi => hi.2
  classical
  -- Up to the first step of the task others move, and they change neither the lock nor the task.
  have hfirst := Nat.find_spec hex
  have hbefore : ∀ j ∈ (List.range (Nat.find hex)).map schedule, j ≠ k := by
    intro j hj
    obtain ⟨i, hi, rfl⟩ := List.mem_map.mp hj
    exact Nat.find_min hex (List.mem_range.mp hi)
  generalize Nat.find hex = first at hfirst hbefore
  have h' : (m.after schedule first).Regular := h.run ho _
  have ho' : (m.after schedule first).Orderly := ho.run _
  have hh' : (m.after schedule first).holder = some k := h.holder_run ho hh hbefore
  have ht : (m.after schedule first).threads k = m.threads k := ho.threads_run (ho.present k hh) hbefore
  have hrest : Machine.Recurs (fun i => schedule (first + 1 + i)) k := fun n => by
    obtain ⟨i, hi, he⟩ := hs (first + 1 + n)
    have hsum : first + 1 + (i - (first + 1)) = i := by omega
    exact ⟨i - (first + 1), by omega, (congrArg schedule hsum).trans he⟩
  have hafter : ∀ steps, m.after schedule (first + 1 + steps) =
      ((m.after schedule first).step k).after (fun i => schedule (first + 1 + i)) steps := by
    intro steps
    rw [Machine.after_add, Machine.after_add m schedule first 1, Machine.after_one, Nat.add_zero,
      hfirst]
  rcases hstep _ k n ho' hh' (ht.trans hk) with hnone | ⟨n', t', hh'', hk'', ht'⟩
  · exact ⟨first + 1 + 0, by rw [hafter]; exact hnone⟩
  · obtain ⟨steps, hnone⟩ := ht' _ k n' (h'.step ho' k) (ho'.step k) hh'' hk'' _ hrest
    exact ⟨first + 1 + steps, by rw [hafter, hnone]⟩

theorem givesBack_release (next : Thread α) : (release next).GivesBack :=
  givesBack_of_step fun m k n _ _ hk => .inl (by simp only [Machine.step, hk]; rfl)

theorem Leaves.givesBack {t : Thread α} (h : t.Leaves) : t.GivesBack := by
  obtain ⟨r, rfl⟩ := h
  refine givesBack_of_step fun m k n _ hh hk => ?_
  simp only [Machine.step, hk]
  exact .inr ⟨n, _, hh, Pool.put_self .., givesBack_release _⟩

/-- What is left of a transaction comes to its release, whatever is answered on the way. -/
theorem Closes.givesBack {t : Thread α} (h : t.Closes) : t.GivesBack := by
  -- A thread is a finite tree, whatever is answered on the way: by induction on it.
  induction t with
  | finish ending => exact h.elim
  | acquire next => exact h.elim
  | begin next => exact h.elim
  | release next => exact h.elim
  | pause next ih =>
    refine givesBack_of_step fun m k n _ hh hk => ?_
    simp only [Machine.step, hk]
    exact .inr ⟨n, next, hh, Pool.put_self .., ih h⟩
  | spawn child next ihChild ihNext =>
    refine givesBack_of_step fun m k n _ hh hk => ?_
    simp only [Machine.step, hk]
    refine .inr ⟨n + 1, next, hh, ?_, ihNext h.2⟩
    exact (Pool.put_of_ne _ (Pool.cons_ne n k).symm 0 child).trans (Pool.put_self ..)
  | enter next ih =>
    refine givesBack_of_step fun m k n ho hh hk => ?_
    simp only [Machine.step, hk, ho.owner.trans hh, decide_true]
    exact .inr ⟨n, next true, hh, Pool.put_self .., ih true h⟩
  | look table next ih =>
    refine givesBack_of_step fun m k n _ hh hk => ?_
    simp only [Machine.step, hk]
    exact .inr ⟨n, _, hh, Pool.put_self .., ih _ (h _)⟩
  | write w next ih =>
    refine givesBack_of_step fun m k n _ hh hk => ?_
    simp only [Machine.step, hk]
    exact .inr ⟨n, _, hh, Pool.put_self .., ih _ (h _)⟩
  | commit next ih =>
    refine givesBack_of_step fun m k n _ hh hk => ?_
    simp only [Machine.step, hk]
    refine .inr ⟨n, _, hh, Pool.put_self .., ?_⟩
    cases m.connection.commit.1 with
    | none =>
      obtain ⟨r, hr⟩ := h.1
      exact hr ▸ givesBack_release _
    | some fault => exact (h.2 fault).givesBack
  | rollback next ih =>
    obtain ⟨r, rfl⟩ := h
    exact Leaves.givesBack ⟨r, rfl⟩

theorem Held.givesBack {t : Thread α} (h : t.Held) : t.GivesBack := by
  cases h with
  | closing h => exact h.givesBack
  | leaving h => exact h ▸ givesBack_release _
  | opening hopens =>
    obtain ⟨next, rfl, hclose, hleave⟩ := hopens.begins
    refine givesBack_of_step fun m k n _ hh hk => ?_
    simp only [Machine.step, hk]
    refine .inr ⟨n, next m.connection.open?.1, ?_, ?_, ?_⟩
    · split <;> exact hh
    · split <;> exact Pool.put_self ..
    · cases m.connection.open?.1 with
      | none => exact hclose.givesBack
      | some fault => exact (hleave fault).givesBack

end Thread

namespace Machine

variable {m : Machine α} {k : TaskName} {n : Nat} {t : Thread α}

theorem Regular.leaves (h : m.Regular) (ho : m.Orderly) (hh : m.holder = some k)
    {schedule : Nat → TaskName} (hs : Recurs schedule k) :
    ∃ steps, (m.after schedule steps).holder = none := by
  obtain ⟨⟨n, t⟩, hk⟩ := Option.isSome_iff_exists.mp (ho.present k hh)
  exact (h.holding k n t hk hh).givesBack m k n h ho hh hk schedule hs

theorem Regular.waits (h : m.Regular) (ho : m.Orderly) {k : TaskName}
    (hw : m.Does Thread.isWaiting k) :
    ∃ schedule : List TaskName, (∀ j ∈ schedule, m.holder = some j) ∧
      ((m.run schedule).step k).holder = some k := by
  obtain ⟨n, t, hk, ht⟩ := hw
  have hgets : ∀ m' : Machine α, m'.holder = none → m'.threads k = some (n, t) →
      (m'.step k).holder = some k := by
    intro m' hfree hk'
    cases t with
    | acquire next => simp [Machine.step, hk', hfree, remember, Machine.resume]
    | _ => cases ht
  cases hh : m.holder with
  | none => exact ⟨[], by simp, hgets m hh hk⟩
  | some j =>
    have hjk : j ≠ k := by
      rintro rfl
      obtain ⟨n', t', hk', -, hmove⟩ := ho.holder_moves hh
      obtain ⟨-, rfl⟩ : n = n' ∧ t = t' := by simpa using hk.symm.trans hk'
      rw [hmove ht] at hh
      cases hh
    have hrecurs : Recurs (fun _ => j) j := fun n => ⟨n, Nat.le_refl n, rfl⟩
    obtain ⟨steps, hfree⟩ := h.leaves ho hh hrecurs
    have hall : ∀ j' ∈ (List.range steps).map fun _ => j, j' = j := by
      intro j' hj'
      obtain ⟨_, -, rfl⟩ := List.mem_map.mp hj'
      rfl
    have hothers : ∀ j' ∈ (List.range steps).map fun _ => j, j' ≠ k :=
      fun j' hj' => hall j' hj' ▸ hjk
    refine ⟨(List.range steps).map fun _ => j, fun j' hj' => by rw [hall j' hj'], hgets _ hfree ?_⟩
    rw [ho.threads_run (by rw [hk]; rfl) hothers, hk]

/-- Nobody joins a transaction but its own, and nobody is kept waiting for good. -/
structure Passable (m : Machine α) : Prop where
  owner : m.owner = m.holder
  busy : ∀ k n (r : Routine α), m.threads k = some (n, r.start) → m.holder ≠ some k
  joins : ∀ k, m.Does Thread.isEntering k → (m.owner = some k ↔ m.Between k)
  leaves : ∀ k, m.holder = some k → ∀ schedule, Recurs schedule k →
    ∃ steps, (m.after schedule steps).holder = none ∧ (m.after schedule steps).owner = none
  waits : ∀ k, m.Does Thread.isWaiting k → ∃ schedule : List TaskName,
    (∀ j ∈ schedule, m.holder = some j) ∧ ((m.run schedule).step k).holder = some k

/-- So it is at any time in any run of tasks, whatever the connection refuses them. -/
theorem passable_run (c : Connection) (main : Routine α) (schedule : List TaskName) :
    ((start c main).run schedule).Passable := by
  have h := (regular_start c main).run (orderly_start c main) schedule
  have ho := (orderly_start c main).run schedule
  refine ⟨ho.owner, fun k n r => h.busy, fun k => ho.joins_iff, fun k hh endless hs => ?_,
    fun k => h.waits ho⟩
  obtain ⟨steps, hfree⟩ := h.leaves ho hh hs
  exact ⟨steps, hfree, (ho.run _).owner.trans hfree⟩

end Machine

end PubSub
