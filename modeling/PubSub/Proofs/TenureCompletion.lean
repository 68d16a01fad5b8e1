import PubSub.Proofs.Serial

/-!
# Looking ahead

From the moment of a grant on, a machine is as good as one in which the holder of the
lock has gone through its whole tenure at once: `Machine.ahead`. The holder's own
steps do not change that, and what the others do without the lock is done ahead as
well.
-/

namespace PubSub

variable {α : Type}

/-! ## Pools -/

namespace Pool

variable {τ : Type} {pool : Pool τ} {k k' : TaskName}

theorem put_put (n n' : Nat) (t t' : τ) : (pool.put k n t).put k n' t' = pool.put k n' t' :=
  Function.update_idem ..

theorem put_comm (h : k ≠ k') (n n' : Nat) (t t' : τ) :
    (pool.put k n t).put k' n' t' = (pool.put k' n' t').put k n t :=
  Function.update_comm h ..

def adopt (pool : Pool τ) (parent : TaskName) : Nat → List τ → Pool τ
  | _, [] => pool
  | n, child :: rest => adopt (pool.put (n :: parent) 0 child) parent (n + 1) rest

theorem adopt_put {n : Nat} (hne : ∀ j, n ≤ j → k' ≠ j :: k) (n' : Nat) (t' : τ) (l : List τ) :
    (pool.put k' n' t').adopt k n l = (pool.adopt k n l).put k' n' t' := by
  induction l generalizing pool n with
  | nil => rfl
  | cons child rest ih =>
    have hchild : k' ≠ n :: k := hne n (Nat.le_refl n)
    rw [adopt, adopt, put_comm hchild, ih fun j hj => hne j (Nat.le_of_succ_le hj)]

theorem adopt_eq_some {n n' : Nat} {t' : τ} {l : List τ}
    (h : pool.adopt k n l k' = some (n', t')) :
    (∃ j, l[j]? = some t' ∧ k' = (n + j) :: k ∧ n' = 0) ∨ pool k' = some (n', t') := by
  induction l generalizing pool n with
  | nil => exact .inr h
  | cons child rest ih =>
    rcases ih h with ⟨j, hj, hk, hn⟩ | hold
    · refine .inl ⟨j + 1, by simpa using hj, ?_, hn⟩
      rw [hk, Nat.add_assoc, Nat.add_comm 1]
    · rcases put_eq_some.mp hold with ⟨hk, hn, ht⟩ | ⟨-, hold⟩
      · exact .inl ⟨0, by simp [ht], hk, hn⟩
      · exact .inr hold

theorem isSome_put (h : (pool k').isSome) (n : Nat) (t : τ) : (pool.put k n t k').isSome := by
  by_cases hk : k' = k
  · subst hk
    simp
  · rwa [put_of_ne _ hk]

theorem isSome_adopt (h : (pool k').isSome) (n : Nat) (l : List τ) :
    (pool.adopt k n l k').isSome := by
  induction l generalizing pool n with
  | nil => exact h
  | cons child rest ih => exact ih (isSome_put h 0 child) (n + 1)

end Pool

/-! ## Looking ahead -/

namespace Machine

variable {m : Machine α} {k : TaskName}

def ahead (m : Machine α) : Connection × Pool (Thread α) :=
  match m.holder with
  | none => (m.connection, m.threads)
  | some h =>
    match m.threads h with
    | none => (m.connection, m.threads)
    | some (n, t) =>
      let r := t.tenure m.connection
      (r.connection, (m.threads.put h (n + r.spawned.length) r.rest).adopt h n r.spawned)

theorem ahead_free (h : m.holder = none) : m.ahead = (m.connection, m.threads) := by
  unfold ahead
  rw [h]

theorem ahead_held (hh : m.holder = some k) {n : Nat} {t : Thread α}
    (hk : m.threads k = some (n, t)) :
    m.ahead = ((t.tenure m.connection).connection,
      (m.threads.put k (n + (t.tenure m.connection).spawned.length)
        (t.tenure m.connection).rest).adopt k n (t.tenure m.connection).spawned) := by
  unfold ahead
  rw [hh]
  simp only [hk]

theorem ahead_resume_holder (hh : m.holder = some k) {n : Nat} {t next : Thread α}
    (hk : m.threads k = some (n, t)) {c : Connection}
    (ht : next.tenure c = t.tenure m.connection) :
    ({ m with connection := c }.resume k n next).ahead = m.ahead := by
  have hk' : ({ m with connection := c }.resume k n next).threads k = some (n, next) :=
    Pool.put_self ..
  have hh' : ({ m with connection := c }.resume k n next).holder = some k := hh
  rw [ahead_held hh' hk', ahead_held hh hk]
  simp only [Machine.resume, ht, Pool.put_put]

theorem ahead_spawn_holder (hh : m.holder = some k) {n : Nat} {child next : Thread α}
    (hk : m.threads k = some (n, .spawn child next)) :
    ((m.resume k (n + 1) next).resume (n :: k) 0 child).ahead = m.ahead := by
  have hne : k ≠ n :: k := (Pool.cons_ne n k).symm
  have hk' : ((m.resume k (n + 1) next).resume (n :: k) 0 child).threads k = some (n + 1, next) := by
    simp [Machine.resume, Pool.put_of_ne _ hne]
  have hh' : ((m.resume k (n + 1) next).resume (n :: k) 0 child).holder = some k := hh
  rw [ahead_held hh' hk', ahead_held hh hk]
  simp only [Machine.resume, Thread.tenure, List.length_cons, Pool.adopt]
  rw [Pool.put_comm hne.symm, Pool.put_put, Nat.add_assoc, Nat.add_comm 1]

theorem ahead_release (hh : m.holder = some k) {n : Nat} {next : Thread α}
    (hk : m.threads k = some (n, .release next)) :
    (({ m with holder := none, owner := none }.resume k n next).remember k .left).ahead =
      m.ahead := by
  rw [ahead_held hh hk]
  rfl

theorem Orderly.ahead_holder (h : m.Orderly) (hh : m.holder = some k) :
    (m.step k).ahead = m.ahead := by
  cases hk : m.threads k with
  | none => simp [Machine.step, hk]
  | some entry =>
    obtain ⟨n, t⟩ := entry
    cases t with
    | finish ending => simp [Machine.step, hk]
    | pause next =>
      simp only [Machine.step, hk]
      exact ahead_resume_holder hh hk (c := m.connection) rfl
    | spawn child next =>
      simp only [Machine.step, hk]
      exact ahead_spawn_holder hh hk
    | enter next =>
      have hown : m.owner = some k := h.owner.trans hh
      simp only [Machine.step, hk, hown, decide_true]
      exact ahead_resume_holder hh hk (c := m.connection) rfl
    | acquire next => simp [Machine.step, hk, hh]
    | begin next =>
      -- Only what is remembered depends on whether it began.
      have hahead : ({ m with connection := m.connection.open?.2 }.resume k n
          (next m.connection.open?.1)).ahead = m.ahead :=
        ahead_resume_holder hh hk rfl
      simp only [Machine.step, hk]
      split
      · exact hahead
      · exact hahead
    | look table next =>
      simp only [Machine.step, hk]
      exact ahead_resume_holder hh hk rfl
    | write w next =>
      simp only [Machine.step, hk]
      exact ahead_resume_holder hh hk rfl
    | commit next =>
      simp only [Machine.step, hk]
      exact ahead_resume_holder hh hk rfl
    | rollback next =>
      simp only [Machine.step, hk]
      exact ahead_resume_holder hh hk rfl
    | release next =>
      simp only [Machine.step, hk]
      exact ahead_release hh hk

/-- The tasks that do not hold the lock, and new ones, are the same ahead. -/
theorem ahead_resume (hout : m.holder ≠ some k)
    (hne : ∀ h n t, m.holder = some h → m.threads h = some (n, t) → ∀ j, n ≤ j → k ≠ j :: h)
    (n : Nat) (t : Thread α) :
    (m.resume k n t).ahead = (m.ahead.1, m.ahead.2.put k n t) := by
  cases hh : m.holder with
  | none =>
    have hh' : (m.resume k n t).holder = none := hh
    rw [ahead_free hh', ahead_free hh]
    rfl
  | some h =>
    have hkh : h ≠ k := by
      rintro rfl
      exact hout hh
    have hh' : (m.resume k n t).holder = some h := hh
    have hsame : (m.resume k n t).threads h = m.threads h := Pool.put_of_ne _ hkh ..
    cases hk : m.threads h with
    | none =>
      unfold ahead
      rw [hh', hh]
      simp only [hsame, hk]
      rfl
    | some entry =>
      obtain ⟨n', t'⟩ := entry
      rw [ahead_held hh' (hsame.trans hk), ahead_held hh hk]
      simp only [Machine.resume]
      rw [Pool.put_comm hkh.symm, Pool.adopt_put (hne h n' t' hh hk)]

theorem Orderly.ahead_resume (h : m.Orderly) (hout : m.holder ≠ some k) {n₀ : Nat} {t₀ : Thread α}
    (hk : m.threads k = some (n₀, t₀)) (n : Nat) (t : Thread α) :
    (m.resume k n t).ahead = (m.ahead.1, m.ahead.2.put k n t) := by
  refine Machine.ahead_resume hout (fun k' n' t' _ hk' j hj => ?_) n t
  rintro rfl
  have hfree := h.fresh k' j (by rwa [Pool.count_of_some hk'])
  rw [hk] at hfree
  cases hfree

/-- Ahead there are the tasks of now and those that the holder is about to spawn. -/
theorem ahead_cases {entry : Nat × Thread α} (h : m.ahead.2 k = some entry) :
    m.threads k = some entry ∨ m.holder = some k ∨ ∃ parent j, m.holder = some parent ∧
      k = j :: parent := by
  cases hh : m.holder with
  | none =>
    rw [ahead_free hh] at h
    exact .inl h
  | some parent =>
    cases hk : m.threads parent with
    | none =>
      unfold ahead at h
      rw [hh] at h
      simp only [hk] at h
      exact .inl h
    | some held =>
      obtain ⟨n, t⟩ := held
      rw [ahead_held hh hk] at h
      rcases Pool.adopt_eq_some h with ⟨j, -, hj, -⟩ | hput
      · exact .inr (.inr ⟨parent, n + j, rfl, hj⟩)
      · rcases Pool.put_eq_some.mp hput with ⟨rfl, -⟩ | ⟨-, hold⟩
        · exact .inr (.inl rfl)
        · exact .inl hold

theorem Orderly.ahead_at (h : m.Orderly) (hout : m.holder ≠ some k) {n : Nat} {t : Thread α}
    (hk : m.threads k = some (n, t)) : m.ahead.2 k = some (n, t) := by
  have hsame : m.resume k n t = m := by
    unfold Machine.resume
    rw [show m.threads.put k n t = m.threads from Function.update_eq_self_iff.mpr hk.symm]
  have hahead := h.ahead_resume hout hk n t
  rw [hsame] at hahead
  rw [hahead]
  exact Pool.put_self ..

theorem Orderly.ahead_unborn (h : m.Orderly) (hout : m.holder ≠ some k) {n : Nat} {t : Thread α}
    (hk : m.threads k = some (n, t)) :
    m.holder ≠ some (n :: k) ∧ m.ahead.2 (n :: k) = none := by
  have hfree := h.fresh k n (Nat.le_of_eq (Pool.count_of_some hk))
  have hholder : m.holder ≠ some (n :: k) := by
    intro hh
    have hsome := h.present (n :: k) hh
    rw [hfree] at hsome
    cases hsome
  refine ⟨hholder, ?_⟩
  cases he : m.ahead.2 (n :: k) with
  | none => rfl
  | some entry =>
    rcases ahead_cases he with hold | hh | ⟨parent, j, hh, hj⟩
    · rw [hfree] at hold
      cases hold
    · exact absurd hh hholder
    · cases hj
      exact absurd hh hout

/-! ## Grants -/

theorem doers_remember (m : Machine α) (k : TaskName) (d d' : Deed) :
    (m.remember k d).doers d' = if d = d' then m.doers d' ++ [k] else m.doers d' := by
  by_cases h : d = d'
  · simp [doers, remember, h]
  · simp [doers, remember, h]

def Gets (m : Machine α) (k : TaskName) : Prop := m.holder = none ∧ m.Does Thread.isWaiting k

theorem step_of_gets {n : Nat} {own : Thread α} (hfree : m.holder = none)
    (hk : m.threads k = some (n, .acquire own)) :
    m.step k =
      ({ m with holder := some k, owner := some k }.resume k n own).remember k .granted := by
  simp [Machine.step, hk, hfree]

theorem granted_of_gets (h : m.Gets k) : (m.step k).doers .granted = m.doers .granted ++ [k] := by
  obtain ⟨hfree, n, t, hk, ht⟩ := h
  cases t with
  | acquire own =>
    rw [step_of_gets hfree hk, doers_remember]
    rfl
  | _ => cases ht

theorem granted_of_not_gets (h : ¬m.Gets k) : (m.step k).doers .granted = m.doers .granted := by
  unfold Machine.step
  split
  · rfl
  · rfl
  · rfl
  · rfl
  · rfl
  · rename_i n own hk
    have hheld : m.holder.isSome = true := by
      by_contra hh
      exact h ⟨by simpa using hh, n, _, hk, rfl⟩
    rw [if_pos hheld]
  · simp only
    split
    · rfl
    · exact doers_remember _ k .began .granted
  · rfl
  · rfl
  · rfl
  · rfl
  · exact doers_remember _ k .left .granted

theorem ahead_of_gets {n : Nat} {own : Thread α} (hfree : m.holder = none)
    (hk : m.threads k = some (n, .acquire own)) :
    (m.step k).ahead = ((own.tenure m.connection).connection,
      (m.threads.put k (n + (own.tenure m.connection).spawned.length)
        (own.tenure m.connection).rest).adopt k n (own.tenure m.connection).spawned) := by
  have hstep := step_of_gets hfree hk
  have hheld : (m.step k).holder = some k := by
    rw [hstep]
    rfl
  have hnow : (m.step k).threads k = some (n, own) := by
    rw [hstep]
    exact Pool.put_self ..
  rw [ahead_held hheld hnow, hstep]
  simp only [Machine.remember, Machine.resume, Pool.put_put]

end Machine

end PubSub
