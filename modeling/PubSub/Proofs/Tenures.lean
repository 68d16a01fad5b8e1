import PubSub.Proofs.Serial

/-!
# What is left of a transaction

From its BEGIN on, what a thread is still going to do is a part of one transaction
(`Thread.Closes`): reads and writes, one COMMIT or ROLLBACK, and then at once the release
of the lock. The machines of routines are `Regular`: the holder of the lock is about to
begin, in such a part, or about to leave, and every other task is at a routine.
-/

namespace PubSub

variable {α β : Type}

/-! ## Parts of a transaction -/

namespace Thread

def Leaves (t : Thread α) : Prop := ∃ r : Routine α, t = .rollback (.release r.start)

def Closes : Thread α → Prop
  | .pause next => next.Closes
  | .spawn child next => (∃ r : Routine α, child = r.start) ∧ next.Closes
  | .enter next => (next true).Closes
  | .look _ next => ∀ found, (next found).Closes
  | .write _ next => ∀ result, (next result).Closes
  | .commit next =>
    (∃ r : Routine α, next none = .release r.start) ∧ ∀ fault, (next (some fault)).Leaves
  | .rollback next => ∃ r : Routine α, next = .release r.start
  | .finish _ | .acquire _ | .begin _ | .release _ => False

theorem Leaves.closes {t : Thread α} (h : t.Leaves) : t.Closes := by
  obtain ⟨r, rfl⟩ := h
  exact ⟨r, rfl⟩

section
variable {next : Ending β → Thread α} (hn : ∀ e, ∃ r : Routine α, next e = r.start)

include hn

theorem leaves_giveUp (e : Ending β) : (giveUp next e).Leaves := by
  obtain ⟨r, hr⟩ := hn (e.after (e.failure?.map Failure.leaving))
  exact ⟨r, by rw [← hr]; rfl⟩

theorem closes_close (e : Ending β) : (close next e).Closes := by
  cases e with
  | raised failure value => exact (leaves_giveUp hn _).closes
  | returned value =>
    obtain ⟨r, hr⟩ := hn (.returned value)
    exact ⟨⟨r, by rw [← hr]⟩, fun fault => leaves_giveUp hn _⟩

end

end Thread

theorem Script.thread_closes (s : Script β) {next : Ending β → Thread α}
    (hn : ∀ e, (next e).Closes) : (s.thread next).Closes := by
  induction s with
  | done value => exact hn _
  | fail failure => exact hn _
  | look table rest ih =>
    unfold Script.thread
    intro found
    cases found with
    | ok db => exact ih db
    | error fault => exact hn _
  | write w rest ih =>
    unfold Script.thread
    intro result
    cases result with
    | ok rows => exact ih rows
    | error failure => exact hn _
  | note n rest ih => exact ih

theorem Operation.thread_closes (op : Operation β) {next : Except Failure β → Thread α}
    (hn : ∀ result, (next result).Closes) : (op.thread next).Closes := by
  unfold Operation.thread
  cases op.refusal with
  | some failure => exact hn _
  | none => exact op.body.thread_closes fun e => hn _

theorem Routine.thread_closes (r : Routine α) {next : Ending α → Thread α}
    (hn : ∀ e, (next e).Closes) : (r.thread next).Closes := by
  induction r generalizing next with
  | finish ending => exact hn ending
  | call op rest ih => exact op.thread_closes fun result => ih result hn
  | block inner rest ihInner ihRest => exact ihInner fun e => ihRest e hn
  | spawn child rest ihChild ihRest => exact ⟨⟨child, rfl⟩, ihRest hn⟩

theorem Routine.Opens.begins {r : Routine α} {t : Thread α} (h : r.Opens t) :
    ∃ next, t = .begin next ∧ (next none).Closes ∧ ∀ fault, (next (some fault)).Leaves := by
  cases h with
  | call hr =>
    exact ⟨_, rfl, Script.thread_closes _ fun e => Thread.closes_close (fun _ => ⟨_, rfl⟩) e,
      fun fault => Thread.leaves_giveUp (fun _ => ⟨_, rfl⟩) _⟩
  | block inner rest =>
    exact ⟨_, rfl, Routine.thread_closes _ fun e => Thread.closes_close (fun _ => ⟨_, rfl⟩) e,
      fun fault => Thread.leaves_giveUp (fun _ => ⟨_, rfl⟩) _⟩

/-! ## Regular machines -/

namespace Thread

inductive Held (t : Thread α) : Prop where
  | opening {r : Routine α} (h : r.Opens t)
  | closing (h : t.Closes)
  | leaving {r : Routine α} (h : t = .release r.start)

end Thread

namespace Machine

/-- The holder of the lock does what such a holder does, and every other task is at a routine. -/
structure Regular (m : Machine α) : Prop where
  outside : ∀ k n t, m.threads k = some (n, t) → m.holder ≠ some k → ∃ r, t.Of r
  holding : ∀ k n t, m.threads k = some (n, t) → m.holder = some k → t.Held

variable {m m' : Machine α} {k : TaskName}

theorem regular_start (c : Connection) (main : Routine α) : (start c main).Regular where
  outside k n t hk _ := by
    by_cases hroot : k = []
    · subst hroot
      cases hk
      exact ⟨main, .inl rfl⟩
    · simp [start, Pool.first, hroot] at hk
  holding k n t hk hh := by cases hh

/-! ### Steps -/

section
variable {n : Nat} {t : Thread α}

theorem Regular.resume (h : m.Regular) (ht : m'.threads = m.threads.put k n t)
    (hother : ∀ k', k' ≠ k → (m'.holder = some k' ↔ m.holder = some k'))
    (hout : m'.holder ≠ some k → ∃ r, t.Of r) (hin : m'.holder = some k → t.Held) :
    m'.Regular where
  outside k' n' t' hk' hh := by
    rw [ht] at hk'
    rcases Pool.put_eq_some.mp hk' with ⟨rfl, rfl, rfl⟩ | ⟨hne, hold⟩
    · exact hout hh
    · exact h.outside k' n' t' hold fun hh' => hh ((hother k' hne).mpr hh')
  holding k' n' t' hk' hh := by
    rw [ht] at hk'
    rcases Pool.put_eq_some.mp hk' with ⟨rfl, rfl, rfl⟩ | ⟨hne, hold⟩
    · exact hin hh
    · exact h.holding k' n' t' hold ((hother k' hne).mp hh)

theorem unheld_child (ho : m.Orderly) {t₀ : Thread α} (hk : m.threads k = some (n, t₀)) :
    m.holder ≠ some (n :: k) := by
  intro hh
  have hpresent := ho.present _ hh
  rw [ho.fresh k n (Nat.le_of_eq (Pool.count_of_some hk))] at hpresent
  cases hpresent

theorem Regular.spawned (h : m.Regular) (ho : m.Orderly) {t₀ child : Thread α}
    (hk : m.threads k = some (n, t₀)) (hchild : ∃ r : Routine α, child = r.start)
    (hout : m.holder ≠ some k → ∃ r, t.Of r) (hin : m.holder = some k → t.Held) :
    ((m.resume k (n + 1) t).resume (n :: k) 0 child).Regular := by
  have hunheld := unheld_child ho hk
  have hfirst : (m.resume k (n + 1) t).Regular :=
    h.resume rfl (fun _ _ => Iff.rfl) hout hin
  obtain ⟨r, rfl⟩ := hchild
  exact hfirst.resume rfl (fun _ _ => Iff.rfl) (fun _ => ⟨r, .inl rfl⟩) fun hh => absurd hh hunheld

end

/-- What a step can come to of a task that does not hold the lock. -/
inductive Outside (m : Machine α) (k : TaskName) : Machine α → Prop where
  | stays : Outside m k m
  | goes (n : Nat) {t : Thread α} {r : Routine α} (ht : t.Of r) : Outside m k (m.resume k n t)
  | spawns {n : Nat} {t : Thread α} (hk : m.threads k = some (n, t)) (child rest : Routine α) :
    Outside m k ((m.resume k (n + 1) rest.start).resume (n :: k) 0 child.start)
  | gets (n : Nat) {own : Thread α} {r : Routine α} (hfree : m.holder = none) (ho : r.Opens own) :
    Outside m k (({ m with holder := some k, owner := some k }.resume k n own).remember k .granted)

theorem Regular.outside_step (h : m.Regular) (ho : m.Orderly) (hout : m.holder ≠ some k) :
    m.Outside k (m.step k) := by
  cases hk : m.threads k with
  | none =>
    simp only [Machine.step, hk]
    exact .stays
  | some entry =>
    obtain ⟨n, t⟩ := entry
    obtain ⟨r, hof⟩ := h.outside k n t hk hout
    rcases hof.cases with hstart | ⟨own, hopens, rfl⟩
    · have hstarts := r.starts
      rw [← hstart] at hstarts
      cases hstarts with
      | finish ending =>
        simp only [Machine.step, hk]
        exact .stays
      | spawn child rest =>
        simp only [Machine.step, hk]
        exact .spawns hk child rest
      | @refused op failure hr rest =>
        simp only [Machine.step, hk]
        exact .goes n (r := rest (.error failure)) (.inl rfl)
      | opens hopens next hn =>
        have hown : ¬m.owner = some k := by
          rw [ho.owner]
          exact hout
        simp only [Machine.step, hk, decide_eq_false hown]
        exact .goes n (.inr ⟨next, hstart.symm, rfl⟩)
    · simp only [Machine.step, hk]
      cases hfree : m.holder with
      | some other => exact .stays
      | none => exact .gets n hfree hopens

theorem Regular.step_outside (h : m.Regular) (ho : m.Orderly) (hout : m.holder ≠ some k) :
    (m.step k).Regular := by
  have hstep := h.outside_step ho hout
  generalize m.step k = m' at hstep
  cases hstep with
  | stays => exact h
  | @goes n t r ht =>
    exact h.resume rfl (fun _ _ => Iff.rfl) (fun _ => ⟨r, ht⟩) fun hh => absurd hh hout
  | spawns hk child rest =>
    exact h.spawned ho hk ⟨child, rfl⟩ (fun _ => ⟨rest, .inl rfl⟩) fun hh => absurd hh hout
  | @gets n own r hfree hopens =>
    refine h.resume (n := n) (t := own) rfl (fun k' hne => ?_) (fun hne => absurd rfl hne)
      fun _ => .opening hopens
    rw [hfree]
    exact ⟨fun he => absurd (Option.some.inj he).symm hne, fun he => by cases he⟩

theorem Regular.step_closing (h : m.Regular) (ho : m.Orderly) (hh : m.holder = some k) {n : Nat}
    {t : Thread α} (hk : m.threads k = some (n, t)) (hcloses : t.Closes) : (m.step k).Regular := by
  have hgoes : ∀ {c : Connection} {t' : Thread α}, t'.Held →
      ({ m with connection := c }.resume k n t').Regular := fun hheld =>
    h.resume rfl (fun _ _ => Iff.rfl) (fun hne => absurd hh hne) fun _ => hheld
  cases t with
  | pause next =>
    simp only [Machine.step, hk]
    exact hgoes (.closing hcloses)
  | spawn child next =>
    simp only [Machine.step, hk]
    exact h.spawned ho hk hcloses.1 (fun hne => absurd hh hne) fun _ => .closing hcloses.2
  | enter next =>
    simp only [Machine.step, hk, ho.owner.trans hh, decide_true]
    exact hgoes (.closing hcloses)
  | look table next =>
    simp only [Machine.step, hk]
    exact hgoes (.closing (hcloses _))
  | write w next =>
    simp only [Machine.step, hk]
    exact hgoes (.closing (hcloses _))
  | commit next =>
    obtain ⟨⟨r, hr⟩, hleave⟩ := hcloses
    simp only [Machine.step, hk]
    rcases m.connection.commit with ⟨fault, c⟩
    cases fault with
    | none => exact hgoes (.leaving hr)
    | some fault => exact hgoes (.closing (hleave fault).closes)
  | rollback next =>
    obtain ⟨r, hr⟩ := hcloses
    simp only [Machine.step, hk]
    exact hgoes (.leaving hr)
  | _ => exact hcloses.elim

theorem Regular.step_holding (h : m.Regular) (ho : m.Orderly) (hh : m.holder = some k) :
    (m.step k).Regular := by
  cases hk : m.threads k with
  | none => simpa [Machine.step, hk] using h
  | some entry =>
    obtain ⟨n, t⟩ := entry
    cases h.holding k n t hk hh with
    | opening hopens =>
      obtain ⟨next, rfl, hclose, hleave⟩ := hopens.begins
      simp only [Machine.step, hk]
      rcases m.connection.open? with ⟨fault, c⟩
      cases fault with
      | none =>
        exact h.resume (n := n) (t := next none) rfl (fun _ _ => Iff.rfl)
          (fun hne => absurd hh hne) fun _ => .closing hclose
      | some fault =>
        exact h.resume (n := n) (t := next (some fault)) rfl (fun _ _ => Iff.rfl)
          (fun hne => absurd hh hne) fun _ => .closing (hleave fault).closes
    | closing hcloses => exact h.step_closing ho hh hk hcloses
    | @leaving r ht =>
      subst ht
      simp only [Machine.step, hk]
      refine h.resume (n := n) (t := r.start) rfl (fun k' hne => ?_) (fun _ => ⟨r, .inl rfl⟩)
        fun he => by cases he
      rw [hh]
      exact ⟨fun he => (by cases he), fun he => absurd (Option.some.inj he).symm hne⟩

theorem Regular.step (h : m.Regular) (ho : m.Orderly) (k : TaskName) : (m.step k).Regular := by
  by_cases hh : m.holder = some k
  · exact h.step_holding ho hh
  · exact h.step_outside ho hh

end Machine

end PubSub
