import PubSub.Proofs.Exclusion

/-!
# Tasks that are run by themselves

`Thread.tenure` runs the holder of the lock by itself until it leaves. What it comes to
is what an operation or a block does in a transaction of its own, and so what a queue
does when it serves the task (`Queue.serve_opens`).
-/

namespace PubSub

variable {α β : Type}

/-! ## What the holder of the lock comes to -/

structure Tenure (α : Type) where
  connection : Connection
  spawned : List (Thread α)
  rest : Thread α

namespace Thread

def tenure : Thread α → Connection → Tenure α
  | .finish ending, c => ⟨c, [], .finish ending⟩
  | .pause next, c => next.tenure c
  | .spawn child next, c =>
    let t := next.tenure c
    { t with spawned := child :: t.spawned }
  | .enter next, c => (next true).tenure c
  | .acquire next, c => ⟨c, [], .acquire next⟩
  | .begin next, c => (next c.open?.1).tenure c.open?.2
  | .look table next, c => (next (c.look table).1).tenure (c.look table).2
  | .write w next, c => (next (c.write w).1).tenure (c.write w).2
  | .commit next, c => (next c.commit.1).tenure c.commit.2
  | .rollback next, c => next.tenure c.rollback.2
  | .release next, c => ⟨c, [], next⟩

theorem tenure_close (next : Ending β → Thread α) (e : Ending β) (c : Connection) :
    (close next e).tenure c = ⟨(World.settle c e.failure?).1, [],
      next (e.after (World.settle c e.failure?).2.2)⟩ := by
  cases e with
  | raised failure value => rfl
  | returned value =>
    unfold close World.settle
    simp only [Ending.failure?, tenure]
    rcases hc : c.commit with ⟨fault, c'⟩
    cases fault <;> rfl

end Thread

theorem Script.tenure_thread (s : Script β) (next : Ending β → Thread α) (c : Connection) :
    (s.thread next).tenure c =
      (next (.ofResult (c.exec s).result)).tenure (c.exec s).connection := by
  induction s generalizing c with
  | done value => rfl
  | fail failure => rfl
  | look table rest ih =>
    simp only [Script.thread, Thread.tenure, Connection.exec, Connection.look]
    by_cases ht : c.view.has table = true
    · simp [ht, ih]
    · simp [ht, Ending.ofResult]
  | write w rest ih =>
    simp only [Script.thread, Thread.tenure, Connection.exec]
    rcases c.write w with ⟨result, c'⟩
    cases result with
    | ok rows => exact ih rows c'
    | error failure => rfl
  | note n rest ih => exact ih c

namespace Operation

variable (op : Operation β)

theorem concluded_join (hr : op.refusal = none) (c : Connection) :
    (c.join op).connection = (c.exec op.body).connection ∧
      (c.join op).result = op.concluded (.ofResult (c.exec op.body).result) := by
  unfold Connection.join
  rw [hr]
  simp only
  cases (c.exec op.body).result <;> exact ⟨rfl, rfl⟩

theorem tenure_own (hr : op.refusal = none) (next : Except Failure β → Thread α)
    (c : Connection) :
    (Thread.own op.body.thread fun e => next (op.concluded e)).tenure c =
      ⟨(c.transact op).connection, [], next (c.transact op).result⟩ := by
  unfold Connection.transact
  rw [hr]
  simp only [Thread.own, Thread.tenure]
  rcases c.open? with ⟨fault, c₁⟩
  cases fault with
  | some fault => rfl
  | none =>
    simp only [Script.tenure_thread, Thread.tenure_close]
    cases (c₁.exec op.body).result with
    | error failure => rfl
    | ok last =>
      simp only [Ending.ofResult, Ending.failure?, World.settle]
      rcases (c₁.exec op.body).connection.commit with ⟨fault, c₂⟩
      cases fault <;> rfl

end Operation

/-! ## What a routine comes to inside a block -/

namespace World

variable {w : World} {i opening : Nat} {c : Connection}

theorem call_refused {op : Operation β} {failure : Failure} (hr : op.refusal = some failure)
    {h : Handle} (hh : w.handle? i = some h) :
    (w.call i op).2 = .error failure ∧ (w.call i op).1.handle? i = some h := by
  obtain ⟨hres, hafter⟩ := handle_call hh op
  have hp : h.perform op = ⟨h.connection, [], .error failure⟩ := by
    unfold Handle.perform Connection.join Connection.transact
    simp [hr]
  rw [hp] at hres hafter
  exact ⟨hres, hafter⟩

theorem carry_joined {inner : Routine α} {rest : Ending α → Routine α}
    (hh : w.handle? i = some ⟨opening, true, c⟩) :
    w.carry i (.block inner rest) =
      let t := (w.enter i).1.carry i inner
      let t' := t.world.carry i (rest t.ending)
      { t' with spawned := t.spawned ++ t'.spawned } := by
  obtain ⟨hentry, -⟩ := handle_enter hh
  simp only [Handle.enter, if_true] at hentry
  have hout : (((w.enter i).1.carry i inner).world.leave i .joined
      ((w.enter i).1.carry i inner).ending.failure?) =
        (((w.enter i).1.carry i inner).world, ((w.enter i).1.carry i inner).ending.failure?) := rfl
  rw [World.carry]
  rcases he : w.enter i with ⟨w₁, result⟩
  rw [he] at hentry hout
  cases hentry
  simp only [hout, Ending.after_failure?]

theorem carry_inside (r : Routine α) (hh : w.handle? i = some ⟨opening, true, c⟩) :
    ∃ c', (w.carry i r).world.handle? i = some ⟨opening, true, c'⟩ ∧
      ∀ next : Ending α → Thread α, (r.thread next).tenure c =
        let t := (next (w.carry i r).ending).tenure c'
        { t with spawned := (w.carry i r).spawned.map Routine.start ++ t.spawned } := by
  -- For every `next`, since each part of the routine is followed by the rest of it.
  induction r generalizing w c with
  | finish ending => exact ⟨c, hh, fun next => rfl⟩
  | call op rest ih =>
    cases hr : op.refusal with
    | some failure =>
      obtain ⟨hres, hafter⟩ := call_refused hr hh
      obtain ⟨c', hc', ht⟩ := ih (w.call i op).2 hafter
      refine ⟨c', hc', fun next => ?_⟩
      rw [World.carry, ← ht next]
      simp only [Routine.thread, Operation.thread, hr, hres, Thread.tenure]
    | none =>
      obtain ⟨hres, hafter⟩ := handle_call hh op
      obtain ⟨hcon, hjoin⟩ := op.concluded_join hr c
      simp only [Handle.perform, if_true] at hres hafter
      rw [hcon] at hafter
      rw [hjoin] at hres
      obtain ⟨c', hc', ht⟩ := ih (w.call i op).2 hafter
      refine ⟨c', hc', fun next => ?_⟩
      rw [World.carry, ← ht next]
      simp only [Routine.thread, Operation.thread, hr, hres, Thread.transaction, Thread.tenure,
        Script.tenure_thread, if_true]
  | block inner rest ihInner ihRest =>
    obtain ⟨-, hin⟩ := handle_enter hh
    simp only [Handle.enter, if_true] at hin
    obtain ⟨c₁, hc₁, ht₁⟩ := ihInner hin
    obtain ⟨c', hc', ht⟩ := ihRest ((w.enter i).1.carry i inner).ending hc₁
    rw [carry_joined hh]
    refine ⟨c', hc', fun next => ?_⟩
    simp only [Routine.thread, Thread.transaction, Thread.tenure, if_true, ht₁, ht, List.map_append,
      List.append_assoc]
  | spawn child rest ihChild ihRest =>
    obtain ⟨c', hc', ht⟩ := ihRest hh
    refine ⟨c', hc', fun next => ?_⟩
    simp only [Routine.thread, Thread.tenure, ht, World.carry, List.map_cons, List.cons_append]
    rfl

theorem carry_block (inner : Routine α) (hh : w.handle? i = some ⟨opening, false, c⟩)
    (next : Ending α → Thread α) :
    let t := w.carry i (.block inner .finish)
    let r := (Thread.own inner.thread next).tenure c
    t.world.handle? i = some ⟨opening, false, r.connection⟩ ∧
      r.spawned = t.spawned.map Routine.start ∧ r.rest = next t.ending := by
  intro t r
  obtain ⟨hentry, hin⟩ := handle_enter hh
  simp only [Handle.enter, Bool.false_eq_true, if_false] at hentry hin
  have hr : r = (Thread.own inner.thread next).tenure c := rfl
  have ht : t = w.carry i (.block inner .finish) := rfl
  simp only [Thread.own, Thread.tenure] at hr
  rw [World.carry] at ht
  rcases he : w.enter i with ⟨w₁, result⟩
  rw [he] at hentry hin ht
  simp only at hentry hin
  rcases ho : c.open? with ⟨fault, c₁⟩
  rw [ho] at hentry hin hr
  cases fault with
  | some fault =>
    cases hentry
    simp only [World.carry] at ht
    rw [ht, hr]
    exact ⟨hin, rfl, rfl⟩
  | none =>
    cases hentry
    obtain ⟨c₂, hc₂, ht₂⟩ := carry_inside inner hin
    simp only [ht₂, Thread.tenure_close] at hr
    obtain ⟨hout, hleft⟩ := handle_leave hc₂ (.outermost opening)
      (w₁.carry i inner).ending.failure?
    simp only [Handle.leave, ne_eq, not_true_eq_false, if_false] at hout hleft
    simp only [World.carry, List.append_nil, hout] at ht
    rw [ht, hr]
    exact ⟨hleft, List.append_nil _, rfl⟩

end World

/-! ## Queues -/

theorem Life.after_settle (r : Routine α) : Life.after [] r = r.settle := rfl

theorem Life.after_spawn (spawned : List (Routine α)) (child rest : Routine α) :
    Life.after spawned (.spawn child rest) = .after (spawned ++ [child]) rest := by
  simp [Life.after, Routine.settle]

theorem Life.getElem?_after {spawned more : List (Routine α)} {j : Nat} {child : Routine α}
    (h : more[j]? = some child) (r : Routine α) :
    (Life.after (spawned ++ more) r).spawned[spawned.length + j]? = some child := by
  have hlt : j < more.length := (List.getElem?_eq_some_iff.mp h).1
  unfold Life.after
  rw [List.append_assoc, List.getElem?_append_right (by omega), List.getElem?_append_left (by omega)]
  simpa using h

namespace Queue

variable {q : Queue α} {k : TaskName}

theorem find?_of_lives {life : Life α} (h : q.lives k = some life) : q.find? k = some life := by
  cases k with
  | nil => exact h
  | cons j parent =>
    unfold find?
    rw [h]

theorem find?_child {j : Nat} (h : q.lives (j :: k) = none) {life : Life α}
    (hp : q.find? k = some life) {child : Routine α} (hj : life.spawned[j]? = some child) :
    q.find? (j :: k) = some (.after [] child) := by
  unfold find?
  rw [h, hp, Life.after_settle]
  simp [hj]

/-- To serve one task changes no other: its parent only goes on spawning. -/
theorem find?_update {w : World} {life life' : Life α} (hk : q.find? k = some life)
    (hp : life.spawned <+: life'.spawned) {k' : TaskName} (hne : k' ≠ k) {other : Life α}
    (h : q.find? k' = some other) :
    find? ⟨w, Function.update q.lives k (some life')⟩ k' = some other := by
  -- Along the names of the parents, up to one that was served.
  induction k' generalizing other with
  | nil =>
    unfold find? at h ⊢
    simp only [Function.update_of_ne hne]
    exact h
  | cons j parent ih =>
    unfold find? at h ⊢
    simp only [Function.update_of_ne hne]
    cases hl : q.lives (j :: parent) with
    | some known =>
      rw [hl] at h
      exact h
    | none =>
      rw [hl] at h
      obtain ⟨r, hr, hs⟩ := Option.map_eq_some_iff.mp h
      obtain ⟨before, hb, hj⟩ := Option.bind_eq_some_iff.mp hr
      by_cases hpk : parent = k
      · subst hpk
        rw [hk] at hb
        cases hb
        obtain ⟨more, hm⟩ := hp
        have hlt : j < life.spawned.length := (List.getElem?_eq_some_iff.mp hj).1
        have hj' : life'.spawned[j]? = some r := by
          rw [← hm, List.getElem?_append_left hlt]
          exact hj
        have hfind : find? ⟨w, Function.update q.lives parent (some life')⟩ parent = some life' :=
          find?_of_lives (Function.update_self ..)
        simp [hfind, hj', hs]
      · simp [ih hpk hb, hj, hs]

end Queue

/-! ## How routines begin -/

/-- A thread is that of a routine, or it waits for the lock to begin the routine's transaction. -/
def Thread.Of (t : Thread α) (r : Routine α) : Prop :=
  t = r.start ∨ ∃ next, r.start = .enter next ∧ t = next false

/-- What a routine with a transaction does once it holds the lock. -/
inductive Routine.Opens : Routine α → Thread α → Prop where
  | call {op : Operation α} {rest : Except Failure α → Routine α} (hr : op.refusal = none) :
    Opens (.call op rest) (.own op.body.thread fun e => (rest (op.concluded e)).start)
  | block (inner : Routine α) (rest : Ending α → Routine α) :
    Opens (.block inner rest) (.own inner.thread fun e => (rest e).start)

inductive Routine.Starts : Routine α → Thread α → Prop where
  | finish (ending : Ending α) : Starts (.finish ending) (.finish ending)
  | spawn (child rest : Routine α) : Starts (.spawn child rest) (.spawn child.start rest.start)
  | refused {op : Operation α} {failure : Failure} (hr : op.refusal = some failure)
    (rest : Except Failure α → Routine α) :
    Starts (.call op rest) (.pause (rest (.error failure)).start)
  | opens {r : Routine α} {own : Thread α} (ho : r.Opens own) (next : Bool → Thread α)
    (hn : next false = .acquire own) : Starts r (.enter next)

theorem Routine.starts (r : Routine α) : r.Starts r.start := by
  cases r with
  | finish ending => exact .finish ending
  | spawn child rest => exact .spawn child rest
  | block inner rest => exact .opens (.block inner rest) _ rfl
  | call op rest =>
    cases hr : op.refusal with
    | some failure =>
      have hs : (Routine.call op rest).start = .pause (rest (.error failure)).start := by
        simp [Routine.start, Routine.thread, Operation.thread, hr]
      rw [hs]
      exact .refused hr rest
    | none =>
      have hs : (Routine.call op rest).start =
          .transaction op.body.thread fun e => (rest (op.concluded e)).start := by
        simp [Routine.start, Routine.thread, Operation.thread, hr]
      rw [hs]
      exact .opens (.call hr) _ rfl

theorem Thread.Of.cases {t : Thread α} {r : Routine α} (h : t.Of r) :
    t = r.start ∨ ∃ own, r.Opens own ∧ t = .acquire own := by
  rcases h with he | ⟨next, hs, rfl⟩
  · exact .inl he
  · have hstarts := r.starts
    rw [hs] at hstarts
    cases hstarts with
    | opens ho _ hn => exact .inr ⟨_, ho, hn⟩

theorem Thread.Of.opens {own : Thread α} {r : Routine α} (h : (Thread.acquire own).Of r) :
    r.Opens own := by
  rcases h.cases with hs | ⟨own', ho, he⟩
  · have hstarts := r.starts
    rw [← hs] at hstarts
    cases hstarts
  · cases he
    exact ho

theorem Thread.Of.ended {t : Thread α} {r : Routine α} (h : t.Of r) : t.ended? = r.ended? := by
  have hopens : ∀ {own : Thread α}, r.Opens own → r.ended? = none := by
    intro own ho
    cases ho <;> rfl
  rcases h.cases with rfl | ⟨own, ho, rfl⟩
  · have hstarts := r.starts
    generalize r.start = t at hstarts
    cases hstarts with
    | finish ending => rfl
    | spawn child rest => rfl
    | refused hr rest => rfl
    | opens ho next hn => exact (hopens ho).symm
  · exact (hopens ho).symm

/-- A routine with a transaction has nothing to do before it. -/
theorem Routine.Opens.settle {r : Routine α} {own : Thread α} (h : r.Opens own) :
    r.settle = ⟨[], r⟩ := by
  cases h with
  | call hr => simp [Routine.settle, hr]
  | block inner rest => rfl

theorem Routine.settle_refused {op : Operation α} {failure : Failure}
    (hr : op.refusal = some failure) (rest : Except Failure α → Routine α) :
    (Routine.call op rest).settle = (rest (.error failure)).settle := by
  simp [Routine.settle, hr]

section
variable {q : Queue α} {k : TaskName} {i opening : Nat}

theorem Queue.serve_opens {spawned : List (Routine α)} {r : Routine α} {own : Thread α}
    (hr : r.Opens own) (hk : q.find? k = some (.after spawned r)) {c : Connection}
    (hh : q.world.handle? i = some ⟨opening, false, c⟩) :
    ∃ (more : List (Routine α)) (r' : Routine α),
      (own.tenure c).spawned = more.map Routine.start ∧ (own.tenure c).rest = r'.start ∧
      (q.serve i k).world.handle? i = some ⟨opening, false, (own.tenure c).connection⟩ ∧
      (q.serve i k).lives = Function.update q.lives k (some (.after (spawned ++ more) r')) := by
  have hlife : Life.after spawned r = ⟨spawned, r⟩ := by
    unfold Life.after
    rw [hr.settle, List.append_nil]
  rw [hlife] at hk
  cases hr with
  | @call op rest href =>
    obtain ⟨hres, hafter⟩ := World.handle_call hh op
    simp only [Handle.perform, Bool.false_eq_true, if_false] at hres hafter
    have ht := op.tenure_own href (fun result => (rest result).start) c
    refine ⟨[], rest (q.world.call i op).2, ?_, ?_, ?_, ?_⟩
    · rw [ht]
      rfl
    · rw [ht, hres]
    · rw [ht]
      simpa only [Queue.serve, hk] using hafter
    · simp only [Queue.serve, hk, List.append_nil]
  | block inner rest =>
    obtain ⟨hafter, hspawned, hrest⟩ := World.carry_block inner hh fun e => (rest e).start
    refine ⟨_, _, hspawned, hrest, ?_, ?_⟩
    · simpa only [Queue.serve, hk] using hafter
    · simp only [Queue.serve, hk]

end

end PubSub
