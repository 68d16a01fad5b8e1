import PubSub.Administration
import PubSub.Call
import PubSub.Seed

/-!
# Sessions

Steps on named stores: calls, transaction blocks that hold further steps, tasks
that run side by side, and what happens to files from outside. The lock of a
store serves tasks in the order in which they came, so tasks run one after
another; tasks that a block starts queue behind those already waiting.
-/

namespace PubSub

inductive Step where
  | call (on : String) (call : Call)
  | openStore (on : String) (path : Option String)
  | newStore (on path : String)
  | closeStore (on : String)
  | isOpen (on : String)
  | block (on : String) (steps : List Step) (abort propagate : Bool) (spawned : List Step)
  | together (steps : List Step)
  | refuse (on : String) (refusal : Refusal)
  | lock (path : String)
  | unlock (path : String)
  | seed (path : String) (seed : Seed)
  | setVersion (path : String) (version : Int)
  | writeFile (path text : String)
  | makeFolder (path : String)
  | pathExists (path : String)
  | advance (seconds : Float)
  | addMetric (on name : String) (n : Int)
  | setMetric (on name : String) (value : Sample)
  | getMetric (on name : String)
  | refresh (on : String)
  | metrics (on : String)
  | exposition (on : String)
  | administer (path : String) (command : Command)

inductive Answer where
  | reply (r : Reply)
  | failed (failure : Failure)
  | place (path : List Text.Point) (isOpen : Bool)
  | text (s : String)
  | document (d : Document)
  /-- The answers inside a block, how it ended, and the answers of the tasks it started. -/
  | block (steps : List Answer) (outcome : Option Failure) (spawned : List Answer)
  | all (answers : List Answer)

namespace Answer

def done : Answer := .reply .done

def ofExcept {α : Type} (f : α → Answer) : Except Failure α → Answer
  | .ok value => f value
  | .error failure => .failed failure

def failure? : Answer → Option Failure
  | .failed failure => some failure
  | _ => none

end Answer

/-! ## Named stores -/

structure Session where
  world : World
  names : List (String × Nat)
  paths : List String

def defaultPath : String := "r.db"

namespace Session

def empty : Session := ⟨.empty, [], []⟩

def watch (s : Session) (path : String) : Session :=
  if s.paths.contains path then s else { s with paths := s.paths ++ [path] }

def make (s : Session) (name path : String) : Session × Nat :=
  let (world, i) := s.world.addStore (Text.points path)
  ({ s.watch path with world := world, names := (name, i) :: s.names }, i)

def store (s : Session) (name : String) : Session × Nat :=
  match s.names.lookup name with
  | some i => (s, i)
  | none => s.make name defaultPath

def pathOf (s : Session) (i : Nat) : List Text.Point :=
  (s.world.stores[i]?.map (·.path)).getD []

def metricsOf (s : Session) (i : Nat) : Metrics :=
  (s.world.stores[i]?.map (·.metrics)).getD (.startedAt s.world.clock)

def onStore {α : Type} (s : Session) (name : String) (f : World → Nat → World × α) : Session × α :=
  let (s, i) := s.store name
  let (world, value) := f s.world i
  ({ s with world := world }, value)

def onWorld {α : Type} (s : Session) (f : World → World × α) : Session × α :=
  let (world, value) := f s.world
  ({ s with world := world }, value)

/-! ## Steps without steps in them -/

def openNamed (s : Session) (name : String) (path : Option String) : Session × Answer :=
  let (s, i) :=
    match path with
    | some path => s.make name path
    | none => s.store name
  let (world, result) := s.world.openStore i
  ({ s with world := world }, .ofExcept (fun _ => .done) result)

def simple (s : Session) : Step → Session × Answer
  | .call name call =>
    let (s, result) := s.onStore name fun w i => w.call i call.operation
    (s, .ofExcept .reply result)
  | .openStore name path => s.openNamed name path
  | .newStore name path => ((s.make name path).1, .done)
  | .closeStore name => s.onStore name fun w i => (w.closeStore i, .done)
  | .isOpen name =>
    let (s, i) := s.store name
    (s, .place (s.pathOf i) ((s.world.stores[i]?.map Store.isOpen).getD false))
  | .refuse name refusal => s.onStore name fun w i => (w.refuse i refusal, .done)
  | .lock path =>
    let (s, result) := s.onWorld (·.lock path)
    (s, .ofExcept (fun _ => .done) result)
  | .unlock path => s.onWorld fun w => (w.unlock path, .done)
  | .seed path seed =>
    let (s, result) := s.onWorld (·.amend path seed.plant)
    (s, .ofExcept (fun _ => .done) result)
  | .setVersion path version =>
    let (s, result) := s.onWorld (·.amend path (.number version))
    (s, .ofExcept (fun _ => .done) result)
  | .writeFile path text =>
    let (s, result) := s.onWorld (·.writeText path text)
    (s, .ofExcept (fun _ => .done) result)
  | .makeFolder path =>
    let (s, result) := s.onWorld (·.makeFolder path)
    (s, .ofExcept (fun _ => .done) result)
  | .pathExists path => (s, .reply (.truth (s.world.pathExists path)))
  | .advance seconds => s.onWorld fun w => (w.advance seconds, .done)
  | .addMetric name metric n => s.onStore name fun w i => (w.setMetrics i (·.add metric n), .done)
  | .setMetric name metric value =>
    s.onStore name fun w i => (w.setMetrics i (·.set metric value), .done)
  | .getMetric name metric =>
    let (s, i) := s.store name
    (s, .document ((s.metricsOf i).get metric).document)
  | .refresh name =>
    let (s, result) := s.onStore name fun w i => w.refresh i
    (s, .ofExcept (fun _ => .done) result)
  | .metrics name =>
    let (s, i) := s.store name
    (s, .document ((s.metricsOf i).document s.world.clock))
  | .exposition name =>
    let (s, i) := s.store name
    (s, .ofExcept .text ((s.metricsOf i).scrape s.world.clock))
  | .administer path command =>
    let (s, result) := (s.watch path).onWorld (·.administer (Text.points path) command)
    (s, .ofExcept .text result)
  | .block .. | .together _ => (s, .done)

/-! ## Steps with steps in them -/

/-- Adds the answers of the tasks that a block started. -/
def withSpawned : Answer → List Answer → Answer
  | .block steps outcome _, spawned => .block steps outcome spawned
  | answer, _ => answer

/-- A block around some steps, and whether it could begin. -/
def inBlock (s : Session) (name : String) (abort : Bool)
    (body : Session → Session × List Answer × Option Failure) : Session × Answer × Bool :=
  let (s, i) := s.store name
  match s.world.enter i with
  | (world, .error failure) => ({ s with world := world }, .block [] (some failure) [], false)
  | (world, .ok entry) =>
    let (s, answers, failure) := body { s with world := world }
    let outcome := failure <|> (if abort then some .aborted else none)
    let (world, outcome) := s.world.leave i entry outcome
    ({ s with world := world }, .block answers outcome [], true)

mutual

def step (s : Session) : Step → Session × Answer
  | .block name steps abort propagate spawned =>
    match s.inBlock name abort fun s => s.body propagate steps with
    | (s, answer, false) => (s, answer)
    | (s, answer, true) =>
      let (s, answers) := s.steps spawned
      (s, withSpawned answer answers)
  | .together steps =>
    let (s, answers) := s.tasks steps
    let (s, answers) := s.startedTasks steps answers
    (s, .all answers)
  | other => s.simple other

/-- The steps of a block. With `propagate` the first failure leaves it. -/
def body (s : Session) (propagate : Bool) : List Step → Session × List Answer × Option Failure
  | [] => (s, [], none)
  | first :: rest =>
    let (s, answer) := s.step first
    match (if propagate then answer.failure? else none) with
    | some failure => (s, [], some failure)
    | none =>
      let (s, answers, failure) := s.body propagate rest
      (s, answer :: answers, failure)

def steps (s : Session) : List Step → Session × List Answer
  | [] => (s, [])
  | first :: rest =>
    let (s, answer) := s.step first
    let (s, answers) := s.steps rest
    (s, answer :: answers)

def tasks (s : Session) : List Step → Session × List (Answer × Bool)
  | [] => (s, [])
  | .block name steps abort propagate _ :: rest =>
    let (s, answer) := s.inBlock name abort fun s => s.body propagate steps
    let (s, answers) := s.tasks rest
    (s, answer :: answers)
  | first :: rest =>
    let (s, answer) := s.step first
    let (s, answers) := s.tasks rest
    (s, (answer, false) :: answers)

/-- The tasks that side by side tasks have started, after all of these. -/
def startedTasks (s : Session) : List Step → List (Answer × Bool) → Session × List Answer
  | .block _ _ _ _ spawned :: rest, (answer, true) :: answers =>
    let (s, more) := s.steps spawned
    let (s, answers) := s.startedTasks rest answers
    (s, withSpawned answer more :: answers)
  | _ :: rest, (answer, _) :: answers =>
    let (s, answers) := s.startedTasks rest answers
    (s, answer :: answers)
  | _, _ => (s, [])

end

/-- One step, its answer, and what was logged meanwhile. -/
def run (s : Session) (step : Step) : Session × Answer × List Event :=
  let (s, answer) := { s with world := { s.world with log := [] } }.step step
  (s, answer, s.world.log)

end Session

end PubSub
