import Mathlib.Logic.Function.Basic
import PubSub.Proofs.Handle

/-!
# Tasks

Tasks that share one store. A `Routine` is what a task does: operations,
transaction blocks, and further tasks that it spawns, inside a block or outside.
Its `Thread` is the same with every point at which the others may come in
between: waiting for the lock, each statement, the beginning and the end of each
transaction. A `Machine` runs threads in any order on one connection, and a
`Queue` runs their transactions one at a time, each as a whole.
-/

namespace PubSub

/-! ## Routines -/

/-- How a part of a task ends: with what it has computed, and with a failure that it raises. -/
inductive Ending (α : Type) where
  | returned (value : α)
  | raised (failure : Failure) (value : Option α)

namespace Ending

variable {α : Type}

def failure? : Ending α → Option Failure
  | .returned _ => none
  | .raised failure _ => some failure

def value? : Ending α → Option α
  | .returned value => some value
  | .raised _ value => value

def after (e : Ending α) : Option Failure → Ending α
  | none => e
  | some failure => .raised failure e.value?

theorem after_failure? (e : Ending α) : e.after e.failure? = e := by
  cases e <;> rfl

def ofResult : Except Failure α → Ending α
  | .ok value => .returned value
  | .error failure => .raised failure none

end Ending

inductive Routine (α : Type) where
  | finish (ending : Ending α)
  | call (op : Operation α) (next : Except Failure α → Routine α)
  | block (inner : Routine α) (next : Ending α → Routine α)
  | spawn (child : Routine α) (next : Routine α)

/-! ## Threads -/

/-- The rest of a task, up to the next point at which it may be interrupted. -/
inductive Thread (α : Type) where
  | finish (ending : Ending α)
  | pause (next : Thread α)
  | spawn (child : Thread α) (next : Thread α)
  /-- The test whether the transaction that is running was opened by the task itself. -/
  | enter (next : Bool → Thread α)
  | acquire (next : Thread α)
  | begin (next : Option Fault → Thread α)
  | look (table : Table) (next : Except Fault Database → Thread α)
  | write (w : Write) (next : Except Failure Nat → Thread α)
  | commit (next : Option Fault → Thread α)
  | rollback (next : Thread α)
  | release (next : Thread α)

namespace Thread

variable {α β : Type}

def giveUp (next : Ending β → Thread α) (e : Ending β) : Thread α :=
  .rollback (.release (next (e.after (e.failure?.map Failure.leaving))))

def close (next : Ending β → Thread α) : Ending β → Thread α
  | .raised failure value => giveUp next (.raised failure value)
  | .returned value => .commit fun
    | some fault => giveUp next (.raised (.engine fault) (some value))
    | none => .release (next (.returned value))

/-- A transaction of its own, by whoever holds the lock. -/
def own (body : (Ending β → Thread α) → Thread α) (next : Ending β → Thread α) : Thread α :=
  .begin fun
    | some fault => giveUp next (.raised (.engine fault) none)
    | none => body (close next)

/-- A task that has opened the running transaction joins it; every other one waits for the lock. -/
def transaction (body : (Ending β → Thread α) → Thread α) (next : Ending β → Thread α) : Thread α :=
  .enter fun joins => if joins then body next else .acquire (own body next)

end Thread

variable {α β : Type}

def Script.thread : Script β → (Ending β → Thread α) → Thread α
  | .done value, next => next (.returned value)
  | .fail failure, next => next (.raised failure none)
  | .look table rest, next => .look table fun
    | .ok db => (rest db).thread next
    | .error fault => next (.raised (.engine fault) none)
  | .write w rest, next => .write w fun
    | .ok rows => (rest rows).thread next
    | .error failure => next (.raised failure none)
  | .note _ rest, next => rest.thread next

def Operation.concluded (op : Operation β) : Ending (Conclusion β) → Except Failure β
  | .returned last => last.result
  | .raised failure _ => (op.recover failure).result

def Operation.thread (op : Operation β) (next : Except Failure β → Thread α) : Thread α :=
  match op.refusal with
  | some failure => .pause (next (.error failure))
  | none => .transaction op.body.thread fun e => next (op.concluded e)

def Routine.thread : Routine α → (Ending α → Thread α) → Thread α
  | .finish ending, next => next ending
  | .call op rest, next => op.thread fun result => (rest result).thread next
  | .block inner rest, next => .transaction inner.thread fun e => (rest e).thread next
  | .spawn child rest, next => .spawn (child.thread .finish) (rest.thread next)

def Routine.start (r : Routine α) : Thread α := r.thread .finish

def Routine.ended? : Routine α → Option (Ending α)
  | .finish ending => some ending
  | _ => none

def Thread.ended? : Thread α → Option (Ending α)
  | .finish ending => some ending
  | _ => none

def Thread.isStatement : Thread α → Bool
  | .look .. | .write .. | .commit _ => true
  | _ => false

def Thread.isEntering : Thread α → Bool
  | .enter _ => true
  | _ => false

def Thread.isWaiting : Thread α → Bool
  | .acquire _ => true
  | _ => false

/-! ## The machine -/

/-- The number of a task among those its parent has spawned, then the parent's name. The first task
has no number. -/
abbrev TaskName := List Nat

/-- The tasks, each with the number of those it has spawned. -/
abbrev Pool (τ : Type) := TaskName → Option (Nat × τ)

namespace Pool

variable {τ : Type}

def first (t : τ) : Pool τ := fun k => if k = [] then some (0, t) else none

def put (pool : Pool τ) (k : TaskName) (n : Nat) (t : τ) : Pool τ :=
  Function.update pool k (some (n, t))

end Pool

/-- What is remembered of a run: the lock was granted, a transaction began, the lock was left. -/
inductive Deed where
  | granted
  | began
  | left
  deriving DecidableEq

def Connection.look (c : Connection) (table : Table) : Except Fault Database × Connection :=
  if c.view.has table then (.ok c.view, c.succeeded)
  else (.error (.missingTable table), c.failed (.missingTable table))

structure Machine (α : Type) where
  connection : Connection
  holder : Option TaskName
  owner : Option TaskName
  threads : Pool (Thread α)
  deeds : List (TaskName × Deed)

namespace Machine

def start (c : Connection) (main : Routine α) : Machine α := ⟨c, none, none, .first main.start, []⟩

def resume (m : Machine α) (k : TaskName) (n : Nat) (next : Thread α) : Machine α :=
  { m with threads := m.threads.put k n next }

def remember (m : Machine α) (k : TaskName) (d : Deed) : Machine α :=
  { m with deeds := m.deeds ++ [(k, d)] }

def step (m : Machine α) (k : TaskName) : Machine α :=
  match m.threads k with
  | none | some (_, .finish _) => m
  | some (n, .pause next) => m.resume k n next
  | some (n, .spawn child next) => (m.resume k (n + 1) next).resume (n :: k) 0 child
  | some (n, .enter next) => m.resume k n (next (m.owner = some k))
  | some (n, .acquire next) =>
    if m.holder.isSome then m
    else ({ m with holder := some k, owner := some k }.resume k n next).remember k .granted
  | some (n, .begin next) =>
    let (fault, c) := m.connection.open?
    let m := { m with connection := c }.resume k n (next fault)
    if fault.isSome then m else m.remember k .began
  | some (n, .look table next) =>
    let (found, c) := m.connection.look table
    { m with connection := c }.resume k n (next found)
  | some (n, .write w next) =>
    let (result, c) := m.connection.write w
    { m with connection := c }.resume k n (next result)
  | some (n, .commit next) =>
    let (fault, c) := m.connection.commit
    { m with connection := c }.resume k n (next fault)
  | some (n, .rollback next) => { m with connection := m.connection.rollback.2 }.resume k n next
  | some (n, .release next) =>
    ({ m with holder := none, owner := none }.resume k n next).remember k .left

def run (m : Machine α) (schedule : List TaskName) : Machine α := schedule.foldl step m

/-! ### What can be said of a run -/

def doers (m : Machine α) (d : Deed) : List TaskName := (m.deeds.filter (·.2 = d)).map (·.1)

/-- A task has begun a transaction and has not left since. -/
def Between (m : Machine α) (k : TaskName) : Prop :=
  ∃ before after, m.deeds = before ++ (k, .began) :: after ∧ (k, .left) ∉ after

def author (m : Machine α) : Option TaskName := (m.doers .began).getLast?

def ended? (m : Machine α) (k : TaskName) : Option (Ending α) := (m.threads k).bind (·.2.ended?)

def Finished (m : Machine α) : Prop := ∀ k, (m.threads k).isSome → (m.ended? k).isSome

def Does (m : Machine α) (p : Thread α → Bool) (k : TaskName) : Prop :=
  ∃ n t, m.threads k = some (n, t) ∧ p t = true

def CanMove (m : Machine α) (k : TaskName) : Prop :=
  ∃ n t, m.threads k = some (n, t) ∧ t.ended? = none ∧ (t.isWaiting = true → m.holder = none)

end Machine

/-! ## One transaction at a time -/

structure Carried (α : Type) where
  world : World
  spawned : List (Routine α)
  ending : Ending α

def World.carry (i : Nat) : World → Routine α → Carried α
  | w, .finish ending => ⟨w, [], ending⟩
  | w, .call op next =>
    let (w, result) := w.call i op
    w.carry i (next result)
  | w, .block inner next =>
    match w.enter i with
    | (w, .error failure) => w.carry i (next (.raised failure none))
    | (w, .ok entry) =>
      let t := w.carry i inner
      let (w, outcome) := t.world.leave i entry t.ending.failure?
      let t' := w.carry i (next (t.ending.after outcome))
      { t' with spawned := t.spawned ++ t'.spawned }
  | w, .spawn child next =>
    let t := w.carry i next
    { t with spawned := child :: t.spawned }

/-- A task at its next transaction, or at its end: the tasks it has spawned so far, and the rest. -/
structure Life (α : Type) where
  spawned : List (Routine α)
  rest : Routine α

/-- Goes on up to the next transaction. -/
def Routine.settle : Routine α → Life α
  | .spawn child next =>
    let life := next.settle
    { life with spawned := child :: life.spawned }
  | .call op next =>
    match op.refusal with
    | some failure => (next (.error failure)).settle
    | none => ⟨[], .call op next⟩
  | r => ⟨[], r⟩

def Life.after (spawned : List (Routine α)) (r : Routine α) : Life α :=
  ⟨spawned ++ r.settle.spawned, r.settle.rest⟩

structure Queue (α : Type) where
  world : World
  lives : TaskName → Option (Life α)

namespace Queue

def start (w : World) (main : Routine α) : Queue α :=
  ⟨w, Function.update (fun _ => none) [] (some main.settle)⟩

/-- A task that was not served yet is as its parent spawned it. -/
def find? (q : Queue α) : TaskName → Option (Life α)
  | [] => q.lives []
  | j :: parent =>
    match q.lives (j :: parent) with
    | some life => some life
    | none => ((q.find? parent).bind fun life => life.spawned[j]?).map Routine.settle

def serve (i : Nat) (q : Queue α) (k : TaskName) : Queue α :=
  match q.find? k with
  | some ⟨spawned, .call op next⟩ =>
    let (w, result) := q.world.call i op
    ⟨w, Function.update q.lives k (some (.after spawned (next result)))⟩
  | some ⟨spawned, .block inner next⟩ =>
    let t := q.world.carry i (.block inner .finish)
    ⟨t.world, Function.update q.lives k (some (.after (spawned ++ t.spawned) (next t.ending)))⟩
  | _ => q

def run (i : Nat) (q : Queue α) (order : List TaskName) : Queue α := order.foldl (serve i) q

def ended? (q : Queue α) (k : TaskName) : Option (Ending α) := (q.find? k).bind (·.rest.ended?)

end Queue

end PubSub
