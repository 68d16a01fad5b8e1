import PubSub.Connection
import PubSub.Files
import PubSub.Metrics

/-!
# Stores in a world

A store is a handle on a database, in a file or in memory, with its own
connection and metrics. The world holds the files, the databases in memory, the
stores, the clock and the log. A call on a store
that is inside a transaction block joins it; every other call has a transaction
of its own.
-/

namespace PubSub

open Text (Point)

/-! ## Stores -/

inductive Home where
  | own (db : Database)
  | common (name : List UInt8)
  | file (place : Path)

def Home.meets : Home → Home → Bool
  | .common a, .common b => a = b
  | .file a, .file b => a = b
  | _, _ => false

/-- Whether a database can have a journal next to it, without which it cannot be looked at. -/
def Home.hasJournal : Home → Bool
  | .file place => Path.hasJournal place
  | _ => true

structure Link where
  home : Home
  mayWrite : Bool
  shares : Bool
  working : Option Database
  /-- What this connection refuses. They end with it. -/
  refusals : List Refusal
  lastFault : Option Fault
  knowsSetting : Bool

namespace Link

def new (home : Home) (a : Address) : Link := ⟨home, a.mayWrite, a.shares, none, [], none, false⟩

def isWriting (link : Link) : Bool := link.mayWrite && link.working.isSome

def isReading (link : Link) : Bool := !link.mayWrite && link.working.isSome

end Link

structure Store where
  path : List Point
  link : Option Link
  openings : Nat
  entered : Bool
  metrics : Metrics

def Store.isOpen (s : Store) : Bool := s.link.isSome

structure World where
  files : Files
  /-- The databases in memory that have a name. -/
  commons : List (List UInt8 × Database)
  /-- Files whose write lock is held from outside. -/
  locked : List Path
  stores : List Store
  clock : Float
  log : List Event

namespace World

def empty : World := ⟨[], [], [], [], 0, []⟩

def report (w : World) (e : Event) : World := { w with log := w.log ++ [e] }

def setStore (w : World) (i : Nat) (s : Store) : World := { w with stores := w.stores.set i s }

def addStore (w : World) (path : List Point) : World × Nat :=
  ({ w with stores := w.stores ++ [⟨path, none, 0, false, .startedAt w.clock⟩] },
    w.stores.length)

/-! ## Databases -/

def database (w : World) : Home → Except Fault Database
  | .own db => .ok db
  | .common name => .ok ((w.commons.lookup name).getD .blank)
  | .file place => w.files.database place

/-- Puts a database back. A file that is no database stays as it is. -/
def keep (w : World) (home : Home) (db : Database) : World × Home :=
  match home with
  | .own _ => (w, .own db)
  | .common name =>
    let others := w.commons.filter fun (n, _) => n ≠ name
    ({ w with commons := (name, db) :: others }, home)
  | .file place =>
    match w.files.database place with
    | .ok _ => ({ w with files := w.files.put place (.database db) }, home)
    | .error _ => (w, home)

def tidy (w : World) : World :=
  let isUsed (name : List UInt8) : Bool :=
    w.stores.any fun s => s.link.any fun link => link.home.meets (.common name)
  { w with commons := w.commons.filter fun (name, _) => isUsed name }

def homeOf (w : World) (a : Address) : World × Except Fault Home :=
  match a.keeping with
  | .alone => (w, .ok (.own .blank))
  | .common name =>
    match w.commons.lookup name with
    | some _ => (w, .ok (.common name))
    | none => ({ w with commons := (name, .blank) :: w.commons }, .ok (.common name))
  | .file name =>
    match w.files.databasePlace? name with
    | none => (w, .error .unopenable)
    | some place =>
      match w.files.openDatabase a place with
      | .error fault => (w, .error fault)
      | .ok files => ({ w with files := files }, .ok (.file place))

/-- An address with the access that a connection really gets there: who shares what others have read
may write if they may. -/
def granted (w : World) (a : Address) (home : Home) : Address :=
  let links := w.stores.filterMap fun s => s.link
  match links.find? fun link => a.shares && link.shares && link.home.meets home with
  | some link => { a with access := if link.mayWrite then .write else .read }
  | none => a

/-- Opens the database at an address. -/
def openAddress (w : World) (a : Address) : World × Except Fault (Address × Home) :=
  match w.homeOf a with
  | (w, .error fault) => (w, .error fault)
  | (w, .ok home) => (w, .ok (w.granted a home, home))

/-! ## Locks -/

def linksBeside (w : World) (i : Nat) (home : Home) : List Link :=
  let others := w.stores.zipIdx.filterMap fun (s, j) => if j = i then none else s.link
  others.filter fun link => link.home.meets home

def isLocked (w : World) : Home → Bool
  | .file place => w.locked.contains place
  | _ => false

def blockedFor (w : World) (i : Nat) (home : Home) (mayWrite shares : Bool) : Option Fault :=
  let beside := w.linksBeside i home
  match w.database home with
  | .error fault => some fault
  | .ok _ =>
    if shares && beside.any fun link => link.shares && link.isWriting then some .tableLocked
    else if mayWrite && (w.isLocked home || beside.any Link.isWriting) then some .locked
    else none

/-- Whether someone else than the `i`-th store is reading a database, without writing to it. -/
def isObserved (w : World) (i : Nat) (home : Home) : Bool :=
  (w.linksBeside i home).any Link.isReading

/-! ## Connections of stores -/

def connection (w : World) (i : Nat) (link : Link) : Connection where
  committed := (w.database link.home).toOption.getD .blank
  blocked := w.blockedFor i link.home link.mayWrite link.shares
  observed := w.isObserved i link.home
  mayWrite := link.mayWrite
  working := link.working
  refusals := link.refusals
  lastFault := link.lastFault
  knowsSetting := link.knowsSetting

def putBack (w : World) (i : Nat) (s : Store) (link : Link) (c : Connection) : World :=
  let (w, home) := w.keep link.home c.committed
  let link : Link :=
    { link with
      home := home
      working := c.working
      refusals := c.refusals
      lastFault := c.lastFault
      knowsSetting := c.knowsSetting }
  w.setStore i { s with link := some link }

def takeNote (i : Nat) (w : World) : Note → World
  | .event e => w.report e
  | .count name =>
    match w.stores[i]? with
    | some s => w.setStore i { s with metrics := s.metrics.add name 1 }
    | none => w

def takeNotes (w : World) (i : Nat) (notes : List Note) : World := notes.foldl (takeNote i) w

/-! ## Calls -/

/-- Ends a call that found no connection. -/
def callUnlinked {α : Type} (w : World) (i : Nat) (op : Operation α) (failure : Failure) :
    World × Except Failure α :=
  match op.refusal with
  | some refusal => (w, .error refusal)
  | none =>
    let last := op.recover failure
    (w.takeNotes i last.notes, last.result)

def call {α : Type} (w : World) (i : Nat) (op : Operation α) : World × Except Failure α :=
  match w.stores[i]? with
  | none => w.callUnlinked i op .unlinked
  | some s =>
    match s.link with
    | none => w.callUnlinked i op (if s.entered then .unlinked else .store (.notOpen s.path))
    | some link =>
      let c := w.connection i link
      let run := if s.entered then c.join op else c.transact op
      ((w.putBack i s link run.connection).takeNotes i run.notes, run.result)

/-! ## Opening and closing -/

/-- Brings the schema of a database up to date. Other rows and numbers stay. -/
def applySchema (path : List Point) (obstacle : Option Fault) (db : Database) :
    Except Failure (Database × List Event) :=
  if schemaVersion < db.version then .error (.store (.newerSchema path db.version))
  else if db.version < schemaVersion then
    match obstacle with
    | some fault => .error (.store (.schema path fault))
    | none => .ok (db.upgraded, [.schemaApplied path db.version])
  else .ok (db, [])

/-- The database at a home with its schema up to date, for a store that opens it. -/
def prepare (w : World) (i : Nat) (path : List Point) (a : Address) (home : Home) :
    Except Failure (Database × List Event) :=
  let obstacle :=
    if !a.mayWrite then some .readOnly
    else w.blockedFor i home true a.shares <|> if w.isObserved i home then some .locked else none
  if !home.hasJournal then .error (.store (.schema path .unopenable))
  else
    match w.database home with
    | .error fault => .error (.store (.schema path fault))
    | .ok db => applySchema path obstacle db

def openHome (w : World) (i : Nat) (s : Store) (a : Address) (home : Home) :
    World × Except Failure Unit :=
  match w.prepare i s.path a home with
  | .error failure => (w.tidy, .error failure)
  | .ok (db, events) =>
    let (w, home) := w.keep home db
    let w := w.setStore i { s with link := some (.new home a), openings := s.openings + 1 }
    let w := events.foldl report w
    (w.report (.storeOpened s.path), .ok ())

/-- Opens a store that is closed. Its folder is made as its text has it, also where the text is an
address. -/
def openClosed (w : World) (i : Nat) (s : Store) : World × Except Failure Unit :=
  let (files, obstacle) := w.files.makeFolders true (Path.folderText s.path)
  let w := { w with files := files }
  match obstacle, Files.bytesOf s.path with
  | some obstacle, _ | none, .error obstacle => (w, .error (.obstructed obstacle))
  | none, .ok bytes =>
    match Address.ofBytes bytes with
    | .error fault => (w, .error (.store (.unopenable s.path (.address fault))))
    | .ok a =>
      match w.openAddress a with
      | (w, .error fault) => (w, .error (.store (.unopenable s.path fault)))
      | (w, .ok (a, home)) => w.openHome i s a home

/-- Opens a store. One that is open stays as it is. -/
def openStore (w : World) (i : Nat) : World × Except Failure Unit :=
  match w.stores[i]? with
  | none => (w, .ok ())
  | some s => if s.isOpen then (w, .ok ()) else w.openClosed i s

/-- Closes a store; a transaction that is open on it is lost. -/
def closeStore (w : World) (i : Nat) : World :=
  match w.stores[i]? with
  | none => w
  | some s =>
    if s.isOpen then ((w.setStore i { s with link := none }).report (.storeClosed s.path)).tidy
    else w

/-! ## Transaction blocks -/

/-- How a block was entered: inside another one, or with a transaction of its own on the connection
that an opening gave. -/
inductive Entry where
  | joined
  | outermost (opening : Nat)

def setEntered (w : World) (i : Nat) (entered : Bool) : World :=
  match w.stores[i]? with
  | some s => w.setStore i { s with entered := entered }
  | none => w

def enter (w : World) (i : Nat) : World × Except Failure Entry :=
  match w.stores[i]? with
  | none => (w, .error .unlinked)
  | some s =>
    if s.entered then (w, .ok .joined)
    else
      match s.link with
      | none => (w, .error (.store (.notOpen s.path)))
      | some link =>
        match (w.connection i link).open? with
        | (none, c) => ((w.putBack i s link c).setEntered i true, .ok (.outermost s.openings))
        | (some fault, c) =>
          let (notes, c) := c.rollback
          ((w.putBack i s link c).takeNotes i notes, .error (.store (.transaction fault)))

def settle (c : Connection) (outcome : Option Failure) :
    Connection × List Note × Option Failure :=
  match outcome with
  | some failure =>
    let (notes, c) := c.rollback
    (c, notes, some failure.leaving)
  | none =>
    match c.commit with
    | (none, c) => (c, [], none)
    | (some fault, c) =>
      let (notes, c) := c.rollback
      (c, notes, some (.store (.transaction fault)))

/-- Leaves a block. Its transaction can be ended only on the connection on which it began. -/
def leave (w : World) (i : Nat) (entry : Entry) (outcome : Option Failure) :
    World × Option Failure :=
  match entry with
  | .joined => (w, outcome)
  | .outermost opening =>
    let w := w.setEntered i false
    match w.stores[i]? with
    | none => (w, some .disconnected)
    | some s =>
      match s.link with
      | none => (w, some .disconnected)
      | some link =>
        if s.openings ≠ opening then (w, some .disconnected)
        else
          let (c, notes, outcome) := settle (w.connection i link) outcome
          ((w.putBack i s link c).takeNotes i notes, outcome)

/-! ## Outside the registry -/

def refuse (w : World) (i : Nat) (refusal : Refusal) : World :=
  match w.stores[i]? with
  | none => w
  | some s =>
    let refusing (link : Link) : Link := { link with refusals := [refusal] }
    w.setStore i { s with link := s.link.map refusing }

def database? (w : World) (path : String) : Option Database :=
  match w.files.found? (Text.points path) with
  | some (.database db) => if db.hasAll then some db else none
  | _ => none

def visit (w : World) (path : String) : World × Except Failure (Address × Home) :=
  match Files.bytesOf (Text.points path) with
  | .error obstacle => (w, .error (.obstructed obstacle))
  | .ok bytes =>
    match Address.ofBytes bytes with
    | .error fault => (w, .error (.engine (.address fault)))
    | .ok a =>
      match w.openAddress a with
      | (w, .error fault) => (w, .error (.engine fault))
      | (w, .ok opened) => (w, .ok opened)

def amendHome (w : World) (a : Address) (home : Home) (change : Change) :
    World × Except Failure Unit :=
  let outside := w.stores.length
  match w.database home with
  | .error fault => (w, .error (.engine fault))
  | .ok db =>
    match change.refusal? db with
    | some failure => (w, .error failure)
    | none =>
      let obstacle :=
        if !home.hasJournal then some .unopenable
        else if !a.mayWrite then some .readOnly
        else w.blockedFor outside home true a.shares
          <|> if change.commits && w.isObserved outside home then some .locked else none
      match obstacle with
      | some fault => (w, .error (.engine fault))
      | none =>
        match change.apply db with
        | .error fault => (w, .error (.engine fault))
        | .ok db => ((w.keep home db).1, .ok ())

def amend (w : World) (path : String) (change : Change) : World × Except Failure Unit :=
  match w.visit path with
  | (w, .error failure) => (w, .error failure)
  | (w, .ok (a, home)) =>
    let (w, result) := w.amendHome a home change
    (w.tidy, result)

def placeOf? (w : World) (path : String) : Option Path :=
  match w.visit path with
  | (_, .ok (_, .file place)) => some place
  | _ => none

def lock (w : World) (path : String) : World × Except Failure Unit :=
  match w.amend path .touch with
  | (w, .error failure) => (w, .error failure)
  | (w, .ok ()) => ({ w with locked := (w.placeOf? path).toList ++ w.locked }, .ok ())

def unlock (w : World) (path : String) : World :=
  { w with locked := w.locked.filter fun place => some place ≠ w.placeOf? path }

def advance (w : World) (seconds : Float) : World := { w with clock := w.clock + seconds }

def withFiles (w : World) : Files × Option Obstacle → World × Except Failure Unit
  | (files, none) => ({ w with files := files }, .ok ())
  | (files, some obstacle) => ({ w with files := files }, .error (.obstructed obstacle))

/-- Writes a text into a file. -/
def writeText (w : World) (path text : String) : World × Except Failure Unit :=
  match w.files.write (Text.points path) (.ofText text) with
  | .ok files => ({ w with files := files }, .ok ())
  | .error obstacle => (w, .error (.obstructed obstacle))

/-- Writes a text into a file, with the folders on the way. -/
def writeDeep (w : World) (path text : String) : World × Except Failure Unit :=
  w.withFiles (w.files.writeDeep (Text.points path) (.ofText text))

/-- Makes a new folder, with the folders on the way. -/
def makeFolder (w : World) (path : String) : World × Except Failure Unit :=
  w.withFiles (w.files.makeFolders false (Text.points path))

def pathExists (w : World) (path : String) : Bool := (w.files.found? (Text.points path)).isSome

end World

end PubSub
