import PubSub.Proofs.Atomicity

/-!
# Runs of calls

A run is a list of turns on one store, each a call from outside every block and
a plan of statements that are refused from then on. What a run does to the
committed database is a `Course`: every call that returns has done what its
operation does, and every call that fails has done nothing. Properties of runs
are proved by induction over courses.
-/

namespace PubSub

/-- A call, and what the connection refuses from then on. -/
structure Turn where
  refusals : List Refusal
  call : Call

/-- A call that was made, with its result and what was committed before and after. -/
structure Moment where
  call : Call
  result : Except Failure Reply
  before : Database
  after : Database

namespace World

def refusing (w : World) (i : Nat) (refusals : List Refusal) : World :=
  match w.stores[i]? with
  | none => w
  | some s => w.setStore i { s with link := s.link.map fun link => { link with refusals := refusals } }

theorem refuse_eq (w : World) (i : Nat) (refusal : Refusal) :
    w.refuse i refusal = w.refusing i [refusal] := by
  unfold refuse refusing
  cases w.stores[i]? <;> rfl

def turn (w : World) (i : Nat) (t : Turn) : World × Except Failure Reply :=
  (w.refusing i t.refusals).call i t.call.operation

def run (w : World) (i : Nat) : List Turn → World
  | [] => w
  | t :: turns => (w.turn i t).1.run i turns

def committed (w : World) (i : Nat) : Database := (w.committed? i).getD .blank

def history (w : World) (i : Nat) : List Turn → List Moment
  | [] => []
  | t :: turns =>
    let next := w.turn i t
    ⟨t.call, next.2, w.committed i, next.1.committed i⟩ :: next.1.history i turns

theorem handle_refusing {w : World} {i : Nat} {h : Handle} (hh : w.handle? i = some h)
    (refusals : List Refusal) :
    (w.refusing i refusals).handle? i =
      some { h with connection := { h.connection with refusals := refusals } } := by
  obtain ⟨s, link, db, hs, hl, hd, hk, rfl⟩ := handle?_eq_some.mp hh
  unfold refusing
  simp only [hs, hl, Option.map_some]
  refine handle?_eq_some.mpr ⟨{ s with link := some { link with refusals := refusals } },
    { link with refusals := refusals }, db, ?_, rfl, hd, hk, ?_⟩
  · rw [getElem?_setStore w i hs, if_pos rfl]
  · have hc : (w.setStore i { s with link := some { link with refusals := refusals } }).connection i
        link = w.connection i link :=
      connection_eq rfl (linksBeside_setStore hs (.inl rfl)) rfl
    rw [← hc]
    rfl

end World

/-! ## Courses -/

/-- One call: it fails and nothing changes, or it does what its operation does. -/
inductive Call.Outcome (db : Database) (call : Call) : Except Failure Reply → Database → Prop where
  | fails (failure : Failure) : Call.Outcome db call (.error failure) db
  | returns {reply : Reply} {db' : Database} (h : call.operation.Returns db reply db') :
    Call.Outcome db call (.ok reply) db'

/-- What has happened to a new database, the last moment at the end. -/
inductive Course : List Moment → Database → Prop where
  | start : Course [] .fresh
  | next {past : List Moment} {db db' : Database} {call : Call} {result : Except Failure Reply}
    (h : Course past db) (step : Call.Outcome db call result db') :
    Course (past ++ [⟨call, result, db, db'⟩]) db'

namespace World

theorem committed_of_committed? {w : World} {i : Nat} {db : Database}
    (h : w.committed? i = some db) : w.committed i = db := by
  simp [committed, h]

theorem call_step {w : World} {i : Nat} {db : Database} (hi : w.Idle i)
    (hd : w.committed? i = some db) (call : Call) :
    (w.call i call.operation).1.Idle i ∧ ∃ db', (w.call i call.operation).1.committed? i = some db' ∧
      Call.Outcome db call (w.call i call.operation).2 db' := by
  obtain ⟨h, hh, he⟩ := hi
  rw [committed?_of_handle hh, Option.some.injEq] at hd
  subst hd
  obtain ⟨hr, hafter⟩ := handle_call hh call.operation
  refine ⟨⟨_, hafter, he⟩, _, committed?_of_handle hafter, ?_⟩
  rw [hr]
  simp only [Handle.perform, he, Bool.false_eq_true, if_false]
  rcases h.connection.transact_call call with ⟨failure, hf, hc⟩ | ⟨reply, ho, hret⟩
  · rw [hf, hc]
    exact .fails failure
  · rw [ho]
    exact .returns hret

theorem turn_step {w : World} {i : Nat} {db : Database} (hi : w.Idle i)
    (hd : w.committed? i = some db) (t : Turn) :
    (w.turn i t).1.Idle i ∧ ∃ db', (w.turn i t).1.committed? i = some db' ∧
      Call.Outcome db t.call (w.turn i t).2 db' := by
  obtain ⟨h, hh, he⟩ := hi
  have hh' := handle_refusing hh t.refusals
  rw [committed?_of_handle hh] at hd
  exact call_step ⟨_, hh', he⟩ ((committed?_of_handle hh').trans hd) t.call

theorem course_of_run {w : World} {i : Nat} (hi : w.Idle i)
    (hd : w.committed? i = some .fresh) (turns : List Turn) :
    (w.run i turns).Idle i ∧ ∃ db, (w.run i turns).committed? i = some db ∧
      Course (w.history i turns) db := by
  have key : ∀ (turns : List Turn) (w : World) (past : List Moment) (db : Database), w.Idle i →
      w.committed? i = some db → Course past db →
      (w.run i turns).Idle i ∧ ∃ db', (w.run i turns).committed? i = some db' ∧
        Course (past ++ w.history i turns) db' := by
    intro turns
    induction turns with
    | nil =>
      intro w past db hi hd hc
      exact ⟨hi, db, hd, by simpa [history] using hc⟩
    | cons t turns ih =>
      intro w past db hi hd hc
      obtain ⟨hi', db', hd', hs⟩ := turn_step hi hd t
      obtain ⟨hr, db'', hd'', hc'⟩ := ih (w.turn i t).1 _ db' hi' hd' (hc.next hs)
      refine ⟨hr, db'', hd'', ?_⟩
      rw [history, committed_of_committed? hd, committed_of_committed? hd']
      simpa using hc'
  simpa using key turns w [] .fresh hi hd .start

theorem calm_refusing {w : World} {i : Nat} (hc : w.Calm i) : (w.refusing i []).Calm i := by
  obtain ⟨h, hh, he, hcalm⟩ := hc
  exact ⟨_, handle_refusing hh [], he,
    ⟨hcalm.working, rfl, hcalm.blocked, hcalm.observed, hcalm.mayWrite⟩⟩

theorem calm_operation {w : World} {i : Nat} (hc : w.Calm i) {α : Type} (op : Operation α) :
    (w.call i op).1.Calm i := by
  obtain ⟨h, hh, he, hcalm⟩ := hc
  refine ⟨_, (handle_call hh op).2, he, ?_⟩
  simp only [Handle.perform, he, Bool.false_eq_true, if_false]
  exact Connection.transact_keeps_calm hcalm op

theorem calm_call {w : World} {i : Nat} (hc : w.Calm i) (call : Call) :
    (w.call i call.operation).1.Calm i := calm_operation hc call.operation

theorem run_calm {w : World} {i : Nat} (hc : w.Calm i) {turns : List Turn}
    (hn : ∀ t ∈ turns, t.refusals = []) : (w.run i turns).Calm i := by
  induction turns generalizing w with
  | nil => exact hc
  | cons t turns ih =>
    refine ih ?_ fun u hu => hn u (by simp [hu])
    unfold turn
    rw [hn t (by simp)]
    exact calm_call (calm_refusing hc) _

theorem history_map_call (w : World) (i : Nat) (turns : List Turn) :
    (w.history i turns).map (·.call) = turns.map (·.call) := by
  induction turns generalizing w with
  | nil => rfl
  | cons t turns ih => simp [history, ih]

end World

theorem Course.keeps {I : Database → Prop} {P : Call → Prop} (h0 : I .fresh)
    (hstep : ∀ call, P call → ∀ db reply db', I db → call.operation.Returns db reply db' → I db')
    {past : List Moment} {db : Database} (h : Course past db) (hP : ∀ m ∈ past, P m.call) : I db := by
  induction h with
  | start => exact h0
  | next h step ih =>
    have hI := ih fun m hm => hP m (List.mem_append_left _ hm)
    cases step with
    | fails failure => exact hI
    | returns hr => exact hstep _ (hP _ (List.mem_append_right _ (List.mem_singleton_self _))) _ _ _ hI hr

end PubSub
