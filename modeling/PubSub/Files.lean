import PubSub.Address
import PubSub.Database
import PubSub.Path

/-!
# Files

A small file system: folders, plain files and database files, each at a path. An
empty file is a database that nothing was written to. A place is reached name by
name through folders that exist, so two dots after a name lead back only where
the name is a folder's.
-/

namespace PubSub

inductive Node where
  | folder
  | plain (text : String)
  | database (db : Database)

namespace Node

def ofText (text : String) : Node := if text.isEmpty then .database .blank else .plain text

def text? : Node → Option String
  | .plain text => some text
  | .database db => if db = .blank then some "" else none
  | .folder => none

def isFolder : Node → Bool
  | .folder => true
  | _ => false

end Node

abbrev Files := List (Path × Node)

namespace Files

open Text (Point)

def node? (files : Files) (path : Path) : Option Node :=
  if path = [] ∨ path = Path.top then some .folder else files.lookup path

def put (path : Path) (node : Node) : Files → Files
  | [] => [(path, node)]
  | (p, n) :: rest => if p = path then (p, node) :: rest else (p, n) :: put path node rest

/-! ## Reaching places -/

def bytesOf (text : List Point) : Except Obstacle (List UInt8) :=
  match Text.name? text with
  | none => .error .unwritable
  | some bytes => if bytes.contains 0 then .error .zeroInName else .ok bytes

def searched (text : List Point) : Except Obstacle (List UInt8) := do
  let bytes ← bytesOf text
  if bytes.isEmpty then throw .missing
  else if Path.isLong bytes then throw .longName
  else return bytes

/-- The place that names lead to. Every name is looked for in a folder; nothing needs to stand at
the last one. -/
def walk (files : Files) (path : Path) : List (List UInt8) → Except Obstacle Path
  | [] => .ok path
  | name :: rest =>
    match files.node? path with
    | none => .error .missing
    | some .folder =>
      if Path.isLongName name then .error .longName else files.walk (Path.step path name) rest
    | some _ => .error .throughFile

def endsInSlash (bytes : List UInt8) : Bool := bytes.getLast? = some Path.slash

/-- The place of a text. An empty text names none, and a slash at the end asks for a folder. -/
def reach (files : Files) (text : List Point) : Except Obstacle Path := do
  let bytes ← searched text
  let last := if endsInSlash bytes then [Path.here] else []
  files.walk (Path.origin bytes) (Path.names bytes ++ last)

def found? (files : Files) (text : List Point) : Option Node :=
  match files.reach text with
  | .ok path => files.node? path
  | .error _ => none

/-! ## Making files -/

/-- The folder that the last name of a text is to stand in, and that name. A text that leads to a
folder in any case has no such name. -/
def lastName (files : Files) (bytes : List UInt8) : Except Obstacle (Path × Option (List UInt8)) :=
  match (Path.names bytes).getLast? with
  | none => .ok (Path.origin bytes, none)
  | some last => do
    let before := (Path.names bytes).dropLast ++ [Path.here]
    let folder ← files.walk (Path.origin bytes) before
    if last = Path.here || last = Path.around then return (folder, none)
    else if Path.isLongName last then throw .longName
    else return (folder, some last)

def makeOne (files : Files) (text : List Point) : Except Obstacle Files := do
  let (folder, last) ← files.lastName (← searched text)
  match last with
  | none => throw .fileInPlace
  | some name =>
    let place := folder ++ [name]
    if (files.node? place).isSome then throw .fileInPlace else return files.put place .folder

def write (files : Files) (text : List Point) (node : Node) : Except Obstacle Files := do
  let bytes ← searched text
  let (folder, last) ← files.lastName bytes
  match last with
  | none => throw .folderInPlace
  | some name =>
    let place := folder ++ [name]
    if endsInSlash bytes || (files.node? place).any Node.isFolder then throw .folderInPlace
    else return files.put place node

/-- Makes a folder, which with `mayStand` may be there already. -/
def makeLast (files : Files) (mayStand : Bool) (text : List Point) : Files × Option Obstacle :=
  match files.makeOne text with
  | .ok files => (files, none)
  | .error obstacle =>
    if mayStand && (files.found? text).any Node.isFolder then (files, none)
    else (files, some obstacle)

/-- Makes a folder and those on the way that are missing. What was made before an obstacle stays. A
folder on the way may come to stand there under another text. -/
def makeAll (files : Files) (mayStand : Bool) : (fuel : Nat) → List Point → Files × Option Obstacle
  | 0, _ => (files, none)
  | fuel + 1, text =>
    let (head, tail) := Path.splitLast text
    if head.isEmpty || tail.isEmpty || (files.found? head).isSome then files.makeLast mayStand text
    else
      match files.makeAll mayStand fuel head with
      | (files, none) | (files, some .fileInPlace) =>
        if tail = [.char '.'] then (files, none) else files.makeLast mayStand text
      | (files, some obstacle) => (files, some obstacle)

def makeFolders (files : Files) (mayStand : Bool) (text : List Point) : Files × Option Obstacle :=
  files.makeAll mayStand (text.length + 1) text

def writeDeep (files : Files) (text : List Point) (node : Node) : Files × Option Obstacle :=
  match files.makeFolders true (Path.folderText text) with
  | (files, some obstacle) => (files, some obstacle)
  | (files, none) =>
    match files.write text node with
    | .ok files => (files, none)
    | .error obstacle => (files, some obstacle)

/-! ## Databases -/

/-- Whether it can be told what stands at a place. Where its folder is missing, nothing does. -/
def tells (files : Files) (path : Path) : Bool :=
  match files.node? path.dropLast with
  | none => true
  | some .folder => !Path.isLongName (path.getLastD [])
  | some _ => false

/-- The place of a database that names lead to. Two dots take back the name before them, also where
no folder has it, but what stands at each name has to be told. -/
def settle? (files : Files) (path : Path) : List (List UInt8) → Option Path
  | [] => some path
  | name :: rest =>
    let next := Path.step path name
    if files.tells next || name = Path.here || name = Path.around then files.settle? next rest
    else none

def databasePlace? (files : Files) (name : List UInt8) : Option Path :=
  files.settle? (Path.origin name) (Path.names name)

/-- Opens a database file, which is made if it is not there and may be made. A folder can be opened
for reading, but there is nothing to read. -/
def openDatabase (files : Files) (a : Address) (path : Path) : Except Fault Files :=
  match files.node? path.dropLast, files.node? path with
  | some .folder, none =>
    if a.mayCreate && Path.isReachable path then .ok (files.put path (.database .blank))
    else .error .unopenable
  | some .folder, some .folder => .error (if a.mayWrite then .unopenable else .unreadable)
  | some .folder, some (.database _) | some .folder, some (.plain _) => .ok files
  | _, _ => .error .unopenable

/-- The database in a file. A file with a single byte counts as one that nothing was written to. -/
def database (files : Files) (path : Path) : Except Fault Database :=
  match files.node? path with
  | some (.database db) => .ok db
  | some (.plain text) => if text.utf8ByteSize ≤ 1 then .ok .blank else .error .notDatabase
  | _ => .ok .blank

end Files

end PubSub
