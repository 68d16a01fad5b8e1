import PubSub.Proofs.TenureCompletion
import PubSub.Proofs.Atomicity

/-!
# Every interleaving is one transaction at a time

A queue that serves the tasks in the order of their grants keeps up with a machine, step
by step: it has always come to what the machine will have come to when the lock is
free.
-/

namespace PubSub

variable {α : Type}

/-- A queue has come to what a machine will have come to when the lock is free. A task of the machine
may be behind by what it does without the store. -/
structure Follows (i opening : Nat) (m : Machine α) (q : Queue α) : Prop where
  handle : q.world.handle? i = some ⟨opening, false, m.ahead.1⟩
  tasks : ∀ k n t, m.ahead.2 k = some (n, t) →
    ∃ spawned r, spawned.length = n ∧ t.Of r ∧ q.find? k = some (.after spawned r)
  known : ∀ k, (q.lives k).isSome → (m.ahead.2 k).isSome

namespace Follows

section
variable {i opening : Nat} {m : Machine α} {q : Queue α} {k : TaskName}

theorem unknown (h : Follows i opening m q) (hk : m.ahead.2 k = none) : q.lives k = none := by
  cases hl : q.lives k with
  | none => rfl
  | some life =>
    have hsome := h.known k (by rw [hl]; rfl)
    rw [hk] at hsome
    cases hsome

theorem congr {m' : Machine α} (h : Follows i opening m q) (ha : m'.ahead = m.ahead) :
    Follows i opening m' q := by
  refine ⟨?_, ?_, ?_⟩
  · rw [ha]
    exact h.handle
  · rw [ha]
    exact h.tasks
  · rw [ha]
    exact h.known

theorem resume (h : Follows i opening m q) {n : Nat} {t : Thread α}
    (hahead : (m.resume k n t).ahead = (m.ahead.1, m.ahead.2.put k n t))
    {spawned : List (Routine α)} {r : Routine α} (hlen : spawned.length = n) (hof : t.Of r)
    (hfind : q.find? k = some (.after spawned r)) : Follows i opening (m.resume k n t) q := by
  refine ⟨?_, fun k' n' t' hk' => ?_, fun k' hk' => ?_⟩
  · rw [hahead]
    exact h.handle
  · rw [hahead] at hk'
    rcases Pool.put_eq_some.mp hk' with ⟨rfl, rfl, rfl⟩ | ⟨-, hold⟩
    · exact ⟨spawned, r, hlen, hof, hfind⟩
    · exact h.tasks k' n' t' hold
  · rw [hahead]
    exact Pool.isSome_put (h.known k' hk') n t

variable (ho : m.Orderly) (h : Follows i opening m q)

include ho h

theorem granted (hfree : m.holder = none) {n : Nat} {own : Thread α}
    (hk : m.threads k = some (n, .acquire own)) : Follows i opening (m.step k) (q.serve i k) := by
  have hout : m.holder ≠ some k := by simp [hfree]
  obtain ⟨spawned, r, hlen, hof, hfind⟩ := h.tasks k n _ (ho.ahead_at hout hk)
  have hhandle := h.handle
  have hfreely := Machine.ahead_free hfree
  rw [hfreely] at hhandle
  obtain ⟨more, r', hmore, hrest, hafter, hlives⟩ :=
    Queue.serve_opens hof.opens hfind hhandle
  have hahead := Machine.ahead_of_gets hfree hk
  simp only [hmore, hrest, List.length_map] at hahead
  have hnew : (q.serve i k).find? k = some (.after (spawned ++ more) r') := by
    apply Queue.find?_of_lives
    rw [hlives, Function.update_self]
  have hprefix : (Life.after spawned r).spawned <+: (Life.after (spawned ++ more) r').spawned := by
    unfold Life.after
    rw [hof.opens.settle, List.append_nil, List.append_assoc]
    exact List.prefix_append _ _
  refine ⟨?_, fun k' n' t' hk' => ?_, fun k' hk' => ?_⟩
  · rw [hahead]
    exact hafter
  · rw [hahead] at hk'
    rcases Pool.adopt_eq_some hk' with ⟨j, hj, rfl, rfl⟩ | hput
    · -- Spawned in this tenure. The queue finds it with its parent.
      obtain ⟨child, hchild, rfl⟩ : ∃ child, more[j]? = some child ∧ child.start = t' := by
        simpa using hj
      have hunborn : m.threads ((n + j) :: k) = none := by
        apply ho.fresh
        rw [Pool.count_of_some hk]
        omega
      have hunknown : (q.serve i k).lives ((n + j) :: k) = none := by
        rw [hlives, Function.update_of_ne (Pool.cons_ne _ k)]
        apply h.unknown
        rw [hfreely]
        exact hunborn
      refine ⟨[], child, rfl, .inl rfl, Queue.find?_child hunknown hnew ?_⟩
      rw [← hlen]
      exact Life.getElem?_after hchild r'
    · rcases Pool.put_eq_some.mp hput with ⟨rfl, rfl, rfl⟩ | ⟨hne, hold⟩
      · exact ⟨spawned ++ more, r', by simp [hlen], .inl rfl, hnew⟩
      · have hthere : m.ahead.2 k' = some (n', t') := by
          rw [hfreely]
          exact hold
        obtain ⟨spawned', r'', hlen', hof', hfind'⟩ := h.tasks k' n' t' hthere
        have hsame := Queue.find?_update (w := (q.serve i k).world) hfind hprefix hne hfind'
        rw [← hlives] at hsame
        exact ⟨spawned', r'', hlen', hof', hsame⟩
  · rw [hahead]
    apply Pool.isSome_adopt
    by_cases hkk : k' = k
    · subst hkk
      simp
    · rw [hlives, Function.update_of_ne hkk] at hk'
      have hthere := h.known k' hk'
      rw [hfreely] at hthere
      exact Pool.isSome_put hthere _ _

theorem spawned (hout : m.holder ≠ some k) {n : Nat} {child rest : Routine α}
    (hk : m.threads k = some (n, .spawn child.start rest.start)) {spawned : List (Routine α)}
    (hlen : spawned.length = n) (hfind : q.find? k = some (.after spawned (.spawn child rest))) :
    Follows i opening ((m.resume k (n + 1) rest.start).resume (n :: k) 0 child.start) q := by
  obtain ⟨hholder, hunborn⟩ := ho.ahead_unborn hout hk
  have hlife : q.find? k = some (.after (spawned ++ [child]) rest) := by
    rw [hfind, Life.after_spawn]
  have hfirst := h.resume (ho.ahead_resume hout hk (n + 1) rest.start) (by simp [hlen]) (.inl rfl)
    hlife
  have hchild : q.find? (n :: k) = some (.after [] child) := by
    apply Queue.find?_child (h.unknown hunborn) hlife
    rw [← hlen]
    exact Life.getElem?_after (j := 0) rfl rest
  have hsame : (m.resume k (n + 1) rest.start).holder ≠ some (n :: k) := hholder
  refine hfirst.resume (Machine.ahead_resume hsame ?_ 0 child.start) rfl (.inl rfl) hchild
  intro parent _ _ hh _ j _ he
  cases he
  exact hout hh

theorem outside (hout : m.holder ≠ some k) (hg : ¬m.Gets k) : Follows i opening (m.step k) q := by
  by_cases hstays : m.step k = m
  · rw [hstays]
    exact h
  obtain ⟨n, t, hk⟩ : ∃ n t, m.threads k = some (n, t) := by
    cases hk : m.threads k with
    | none => exact absurd (by simp [Machine.step, hk]) hstays
    | some entry => exact ⟨entry.1, entry.2, rfl⟩
  obtain ⟨spawned, r, hlen, hof, hfind⟩ := h.tasks k n t (ho.ahead_at hout hk)
  have hstart : t = r.start := by
    rcases hof.cases with hstart | ⟨own, -, rfl⟩
    · exact hstart
    · -- It waits, and so the lock is held by another task.
      cases hfree : m.holder with
      | none => exact absurd ⟨hfree, n, _, hk, rfl⟩ hg
      | some other => exact absurd (by simp [Machine.step, hk, hfree]) hstays
  have hstarts := r.starts
  rw [← hstart] at hstarts
  cases hstarts with
  | finish ending => exact absurd (by simp [Machine.step, hk]) hstays
  | spawn child rest =>
    have hstep : m.step k = (m.resume k (n + 1) rest.start).resume (n :: k) 0 child.start := by
      simp only [Machine.step, hk]
    rw [hstep]
    exact h.spawned ho hout hk hlen hfind
  | @refused op failure href rest =>
    have hstep : m.step k = m.resume k n (rest (.error failure)).start := by
      simp only [Machine.step, hk]
    rw [hstep]
    refine h.resume (ho.ahead_resume hout hk n _) hlen (.inl rfl) ?_
    rw [hfind, Life.after, Life.after, Routine.settle_refused href]
  | @opens _ own hopens next hn =>
    have hown : ¬m.owner = some k := by
      rw [ho.owner]
      exact hout
    have hstep : m.step k = m.resume k n (next false) := by
      simp only [Machine.step, hk, decide_eq_false hown]
    rw [hstep]
    exact h.resume (ho.ahead_resume hout hk n _) hlen (.inr ⟨next, hstart.symm, rfl⟩) hfind

end

theorem start {w : World} {i : Nat} {h : Handle} (hh : w.handle? i = some h)
    (he : h.entered = false) (main : Routine α) :
    Follows i h.opening (Machine.start h.connection main) (Queue.start w main) := by
  have hahead : (Machine.start h.connection main).ahead = (h.connection, .first main.start) :=
    Machine.ahead_free rfl
  refine ⟨?_, fun k n t hk => ?_, fun k hk => ?_⟩
  · rw [hahead, ← he]
    exact hh
  · rw [hahead] at hk
    by_cases hroot : k = []
    · subst hroot
      cases hk
      have hlives : (Queue.start w main).lives [] = some main.settle := by simp [Queue.start]
      exact ⟨[], main, rfl, .inl rfl, Queue.find?_of_lives hlives⟩
    · simp [Pool.first, hroot] at hk
  · rw [hahead]
    by_cases hroot : k = []
    · subst hroot
      rfl
    · simp [Queue.start, Function.update_of_ne hroot] at hk

section
variable {i opening : Nat} {m : Machine α} {q : Queue α}

theorem step (ho : m.Orderly) (h : Follows i opening m (q.run i (m.doers .granted)))
    (k : TaskName) : Follows i opening (m.step k) (q.run i ((m.step k).doers .granted)) := by
  by_cases hg : m.Gets k
  · rw [Machine.granted_of_gets hg]
    unfold Queue.run
    rw [List.foldl_append]
    obtain ⟨hfree, n, t, hk, ht⟩ := hg
    cases t with
    | acquire own => exact h.granted ho hfree hk
    | _ => cases ht
  · rw [Machine.granted_of_not_gets hg]
    by_cases hh : m.holder = some k
    · exact h.congr (ho.ahead_holder hh)
    · exact h.outside ho hh hg

theorem run (ho : m.Orderly) (h : Follows i opening m (q.run i (m.doers .granted)))
    (schedule : List TaskName) :
    Follows i opening (m.run schedule) (q.run i ((m.run schedule).doers .granted)) := by
  induction schedule generalizing m with
  | nil => exact h
  | cons k schedule ih => exact ih (ho.step k) (h.step ho k)

theorem ended (h : Follows i opening m q) (hfree : m.holder = none) {k : TaskName}
    {ending : Ending α} (he : m.ended? k = some ending) : q.ended? k = some ending := by
  obtain ⟨⟨n, t⟩, hk, ht⟩ := Option.bind_eq_some_iff.mp he
  have hthere : m.ahead.2 k = some (n, t) := by
    rw [Machine.ahead_free hfree]
    exact hk
  obtain ⟨spawned, r, -, hof, hfind⟩ := h.tasks k n t hthere
  have hr : r.ended? = some ending := hof.ended.symm.trans ht
  unfold Queue.ended?
  rw [hfind]
  cases r with
  | finish ending' => exact hr
  | _ => cases hr

end

end Follows

/-! ## Tasks on one store -/

/-- However the steps of tasks on a store are interleaved, there is at most one between its BEGIN and
its leaving; statements are executed by it alone and in the transaction that it began; a task joins a
transaction just if it is its own; some task can go on as long as not all have ended; and whenever
the lock is free, what is committed and what the ended tasks return is what comes of running the
transactions one at a time, each as a whole, in the order of the grants. -/
theorem World.tasks_serialize {w : World} {i : Nat} {h : Handle} (hh : w.handle? i = some h)
    (he : h.entered = false) (main : Routine α) (schedule : List TaskName) :
    let m := (Machine.start h.connection main).run schedule
    let q := (Queue.start w main).run i (m.doers .granted)
    (∀ k k', m.Between k → m.Between k' → k = k') ∧
    (∀ k, m.Does Thread.isStatement k → m.Between k ∧ m.author = some k) ∧
    (∀ k, m.Does Thread.isEntering k → (m.owner = some k ↔ m.Between k)) ∧
    (m.Finished → m.holder = none) ∧
    (¬m.Finished → ∃ k, m.CanMove k) ∧
    (m.holder = none → q.world.committed? i = some m.connection.committed ∧
      ∀ k ending, m.ended? k = some ending → q.ended? k = some ending) := by
  intro m q
  have hstart := Machine.orderly_start h.connection main
  have ho : m.Orderly := hstart.run schedule
  have hf : Follows i h.opening m q := (Follows.start hh he main).run hstart schedule
  refine ⟨fun k k' => ho.one_between, fun k => ho.inside_of_statement, fun k => ho.joins_iff,
    ho.free_of_finished, ho.moves_of_not_finished, fun hfree => ⟨?_, fun k ending => hf.ended hfree⟩⟩
  have hhandle := hf.handle
  rw [Machine.ahead_free hfree] at hhandle
  exact World.committed?_of_handle hhandle

/-- A block that registers a topic, spawns a task that adds a subscriber, and fails. -/
def abandoning : Routine Reply :=
  .block
    (.call (Call.registerTopic "t" "p" none (.plain true)).operation fun _ =>
      .spawn (.call (Call.addSubscriber "t" "s" .empty (some 0) none).operation fun result =>
        .finish (.ofResult result))
      (.finish (.raised .aborted none)))
    .finish

/-- The spawned task asks for the lock while the block still runs. -/
def overlapping : List TaskName :=
  [[], [], [], [], [], [], [0], [0], [], [0], [], [0], [0], [0], [0], [0]]

theorem World.tasks_serialize_abandoning :
    let m := (Machine.start ⟨.fresh, none, false, true, none, [], none, false⟩ abandoning).run
      overlapping
    (m.ended? []).map (·.failure?.map Failure.message) = some (some "abort") ∧
      (m.ended? [0]).map (·.failure?.map Failure.message) = some none ∧
      m.connection.committed.topics = [] ∧
      m.connection.committed.members = [⟨1, "t", "s", "[]", 0, none⟩] ∧
      m.doers .granted = [[], [0]] ∧
      let q := (Queue.start (World.lone .fresh []) abandoning).run 0 [[], [0]]
      q.world.committed? 0 = some m.connection.committed ∧
        ∀ k ending, m.ended? k = some ending → q.ended? k = some ending := by
  intro m
  have hgrants : m.doers .granted = [[], [0]] := by decide +kernel
  obtain ⟨-, -, -, -, -, hserial⟩ :=
    World.tasks_serialize (World.lone_handle .fresh []) rfl abandoning overlapping
  obtain ⟨hcom, hended⟩ := hserial (by decide +kernel)
  refine ⟨by decide +kernel, by decide +kernel, by decide +kernel, by decide +kernel, hgrants, ?_⟩
  rw [← hgrants]
  exact ⟨hcom, hended⟩

end PubSub
