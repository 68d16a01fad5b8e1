import PubSub.Script

/-!
# Connections

A connection sees what the file holds, or its own copy while a transaction is
open on it. Statements may be refused before they run, by a list of refusals
that count statements of one kind. A connection also remembers the fault of its
last statement, which is told once more where a later statement cannot even be
given its numbers. `transact` runs an operation in a transaction of its own,
`join` in one that is already open.
-/

namespace PubSub

/-! ## Refusals -/

/-- Lets the next `skip` statements of a kind through and refuses the `times` after them. -/
structure Refusal where
  verb : Verb
  skip : Nat
  times : Nat
  deriving DecidableEq

namespace Refusal

def refuses (r : Refusal) (verb : Verb) : Bool := r.verb = verb && r.skip = 0 && 0 < r.times

def after (r : Refusal) (verb : Verb) : Refusal :=
  if r.verb ≠ verb then r
  else if 0 < r.skip then { r with skip := r.skip - 1 }
  else { r with times := r.times - 1 }

end Refusal

/-! ## Statements on a connection -/

structure Connection where
  committed : Database
  /-- Why no transaction can begin, such as another connection that holds the write lock. -/
  blocked : Option Fault
  observed : Bool
  mayWrite : Bool
  working : Option Database
  refusals : List Refusal
  lastFault : Option Fault
  knowsSetting : Bool

namespace Connection

def view (c : Connection) : Database := c.working.getD c.committed

def ask (c : Connection) (verb : Verb) : Bool × Connection :=
  (c.refusals.any (·.refuses verb), { c with refusals := c.refusals.map (·.after verb) })

/-- The connection after a statement that went well. -/
def succeeded (c : Connection) : Connection := { c with lastFault := none }

/-- The connection after a statement with a fault. -/
def failed (c : Connection) (fault : Fault) : Connection := { c with lastFault := some fault }

/-! ### Transactions -/

/-- Opens a transaction, which takes the write lock. -/
def open? (c : Connection) : Option Fault × Connection :=
  let (refused, c) := c.ask .begin
  if refused then (some .refused, c)
  else
    match (if c.working.isSome then some .nested else c.blocked) with
    | some fault => (some fault, c.failed fault)
    | none => (none, { c.succeeded with working := some c.committed })

def commit (c : Connection) : Option Fault × Connection :=
  let (refused, c) := c.ask .commit
  if refused then (some .refused, c)
  else
    match c.working with
    | none => (some .idle, c.failed .idle)
    | some db =>
      if c.mayWrite && c.observed then (some .locked, c.failed .locked)
      else (none, { c.succeeded with committed := db, working := none })

/-- Gives an open transaction up. A refused rollback leaves it open. -/
def rollback (c : Connection) : List Note × Connection :=
  match c.working with
  | none => ([], c)
  | some _ =>
    let (refused, c) := c.ask .rollback
    if refused then ([.event (.rollbackFailed .refused)], c)
    else ([], { c.succeeded with working := none })

/-! ### Writes -/

/-- The database as a statement leaves it: in the open transaction, or at once in the file. -/
def store (c : Connection) (db : Database) : Connection :=
  match c.working with
  | some _ => { c with working := some db }
  | none => { c with committed := db }

def preparing (c : Connection) (w : Write) : Connection :=
  if w.setsNotification then
    { c with lastFault := if c.knowsSetting then c.lastFault else none, knowsSetting := true }
  else c.succeeded

def obstacle? (c : Connection) : Option Fault :=
  if !c.mayWrite then some .readOnly
  else if c.working.isSome then none
  else c.blocked <|> if c.observed then some .locked else none

def write (c : Connection) (w : Write) : Except Failure Nat × Connection :=
  let (refused, c) := c.ask w.verb
  if refused then (.error (.engine .refused), c)
  else if !c.view.has w.table then
    let fault := Fault.missingTable w.table
    (.error (.engine fault), c.failed fault)
  else
    let c := c.preparing w
    if !w.storable then (.error ((c.lastFault.map Failure.engine).getD .oversized), c)
    else
      match c.obstacle? with
      | some fault => (.error (.engine fault), c.failed fault)
      | none =>
        match w.run c.view with
        | .ok (rows, db) => (.ok rows, c.succeeded.store db)
        -- A database that is full gives the whole transaction up.
        | .error fault => (.error (.engine fault), { c.failed fault with working := none })

end Connection

/-! ## Scripts on a connection -/

structure Run (α : Type) where
  connection : Connection
  notes : List Note
  result : Except Failure α

namespace Connection

def exec {α : Type} (c : Connection) : Script α → Run α
  | .done value => ⟨c, [], .ok value⟩
  | .fail failure => ⟨c, [], .error failure⟩
  | .look table next =>
    if c.view.has table then c.succeeded.exec (next c.view)
    else ⟨c.failed (.missingTable table), [], .error (.engine (.missingTable table))⟩
  | .write w next =>
    match c.write w with
    | (.ok rows, c) => c.exec (next rows)
    | (.error failure, c) => ⟨c, [], .error failure⟩
  | .note n next =>
    let run := c.exec next
    { run with notes := n :: run.notes }

def conclude {α : Type} (c : Connection) (before : List Note) (last : Conclusion α) : Run α :=
  ⟨c, before ++ last.notes, last.result⟩

/-- Gives the transaction up after a failure. -/
def giveUp {α : Type} (c : Connection) (before : List Note) (op : Operation α) (failure : Failure) :
    Run α :=
  let (notes, c) := c.rollback
  c.conclude (before ++ notes) (op.recover failure.leaving)

/-- An operation in a transaction of its own. -/
def transact {α : Type} (c : Connection) (op : Operation α) : Run α :=
  match op.refusal with
  | some failure => ⟨c, [], .error failure⟩
  | none =>
    match c.open? with
    | (some fault, c) => c.giveUp [] op (.engine fault)
    | (none, c) =>
      let run := c.exec op.body
      match run.result with
      | .error failure => run.connection.giveUp run.notes op failure
      | .ok last =>
        match run.connection.commit with
        | (some fault, c) => c.giveUp run.notes op (.engine fault)
        | (none, c) => c.conclude run.notes last

/-- An operation inside a transaction that someone else has opened and will end. -/
def join {α : Type} (c : Connection) (op : Operation α) : Run α :=
  match op.refusal with
  | some failure => ⟨c, [], .error failure⟩
  | none =>
    let run := c.exec op.body
    match run.result with
    | .ok last => run.connection.conclude run.notes last
    | .error failure => run.connection.conclude run.notes (op.recover failure)

end Connection

end PubSub
