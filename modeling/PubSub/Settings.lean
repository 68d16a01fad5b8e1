import PubSub.Event
import PubSub.Files
import PubSub.Text.Blank
import PubSub.Text.Bytes
import PubSub.Text.Lower
import PubSub.Yaml.Meaning

/-!
# Settings

Where the store is, how long it waits for a lock, and what the log keeps. They
come from a document with two sections. What is left out has its default, and
every fault is reported, not only the first.
-/

namespace PubSub

inductive LogFormat where
  | json
  | text
  deriving DecidableEq

namespace LogFormat

def name : LogFormat → String
  | .json => "json"
  | .text => "text"

def ofName? (s : String) : Option LogFormat := [json, text].find? fun format => format.name = s

end LogFormat

structure Settings where
  path : List Text.Point
  busyTimeout : Float
  level : Level
  format : LogFormat

/-! ## Faults -/

inductive Defect where
  | notRecord
  | notText
  | undecodable
  | notNumber
  | unreadableNumber
  | notPositive
  | unknownFormat
  | unknownLevel (given : List Text.Point)
  deriving DecidableEq

def Defect.message : Defect → String
  | .notRecord => "not a mapping"
  | .notText => "not a text"
  | .undecodable => "bytes that are not a text"
  | .notNumber => "not a number"
  | .unreadableNumber => "a text that is not a number"
  | .notPositive => "not greater than zero"
  | .unknownFormat => "neither json nor text"
  | .unknownLevel given => "Value error, Unknown log level: " ++ Text.written given

/-- Whether the wording can be put down. One that repeats half of a pair cannot. -/
def Defect.isWritable : Defect → Bool
  | .unknownLevel given => (Text.string? given).isSome
  | _ => true

structure Issue where
  location : List String
  defect : Defect
  deriving DecidableEq

def Issue.place (i : Issue) : String := String.intercalate "." i.location

/-! ## Checks -/

abbrev Checked (α : Type) := Except (List Issue) α

namespace Checked

def both {α β : Type} : Checked α → Checked β → Checked (α × β)
  | .ok a, .ok b => .ok (a, b)
  | .ok _, .error issues => .error issues
  | .error issues, .ok _ => .error issues
  | .error first, .error second => .error (first ++ second)

end Checked

namespace Settings

/-- Bytes count as the text they stand for. -/
def textOf : Document → Except Defect (List Text.Point)
  | .text s => .ok (Text.points s)
  | .ragged points => .ok points
  | .bytes data =>
    match Text.ofBytes? data with
    | some s => .ok (Text.points s)
    | none => .error .undecodable
  | _ => .error .notText

def withoutUnderscores? (cs : List Char) : Option (List Char) :=
  if (cs.splitOn '_').any List.isEmpty then none else some (cs.filter (· ≠ '_'))

def floatOfText? (s : String) : Option Float :=
  let cs := s.toList
  Decimal.float? (Text.trim cs) <|> (withoutUnderscores? cs).bind Decimal.float?

def readable : Option Float → Except Defect Float
  | some x => .ok x
  | none => .error .unreadableNumber

/-- Whole numbers, truth values, texts and bytes count as numbers where they can. -/
def floatOf : Document → Except Defect Float
  | .float x => .ok x
  | .bool b => .ok (if b then 1 else 0)
  | .int n =>
    let x := Decimal.Scientific.toFloat ⟨n < 0, n.natAbs, 0⟩
    if x.isInf then .error .notNumber else .ok x
  | .text s => readable (floatOfText? s)
  | .ragged _ => .error .undecodable
  | .bytes data => readable ((Text.ofBytes? data).bind floatOfText?)
  | _ => .error .notNumber

def timeoutOf (d : Document) : Except Defect Float := do
  let x ← floatOf d
  if 0 < x then return x else throw .notPositive

/-- A level in any letter case. -/
def levelOf (d : Document) : Except Defect Level := do
  let given ← textOf d
  match (Text.string? (Text.lower given)).bind Level.ofName? with
  | some level => return level
  | none => throw (.unknownLevel given)

def formatOf : Document → Except Defect LogFormat
  | .text s =>
    match LogFormat.ofName? s with
    | some format => .ok format
    | none => .error .unknownFormat
  | .ragged _ => .error .undecodable
  | _ => .error .unknownFormat

/-! ## Sections -/

def checked {α : Type} (location : List String) : Except Defect α → Checked α
  | .ok value => .ok value
  | .error defect => .error [⟨location, defect⟩]

def field {α : Type} (part : Document) (location : List String) (name : String) (default : α)
    (check : Document → Except Defect α) : Checked α :=
  match part.field? name with
  | none => .ok default
  | some value => checked (location ++ [name]) (check value)

def isRecord : Document → Bool
  | .map _ => true
  | _ => false

/-- Something read from a mapping; anything else is one fault. -/
def ofRecord {α : Type} (d : Document) (location : List String) (read : Document → Checked α) :
    Checked α :=
  if isRecord d then read d else .error [⟨location, .notRecord⟩]

def defaultPath : String := "./data/subscriptions.db"

def storeSection (d : Document) : Checked (List Text.Point × Float) :=
  (field d ["store"] "db_path" (Text.points defaultPath) textOf).both
    (field d ["store"] "busy_timeout_seconds" 5 timeoutOf)

def logSection (d : Document) : Checked (Level × LogFormat) :=
  (field d ["logging"] "level" .info levelOf).both (field d ["logging"] "format" .json formatOf)

/-- A section of a document. One that is left out has no fields. -/
def inSection {α : Type} (d : Document) (name : String) (read : Document → Checked α) :
    Checked α :=
  ofRecord ((d.field? name).getD (.map [])) [name] read

def sections (d : Document) : Checked ((List Text.Point × Float) × (Level × LogFormat)) :=
  (inSection d "store" storeSection).both (inSection d "logging" logSection)

def ofDocument (d : Document) : Checked Settings :=
  (ofRecord d [] sections).map fun ((path, busyTimeout), (level, format)) =>
    ⟨path, busyTimeout, level, format⟩

def document (s : Settings) : Document :=
  .record [
    ("store", .record [
      ("db_path", .ofPoints s.path),
      ("busy_timeout_seconds", .float s.busyTimeout)]),
    ("logging", .record [("level", .text s.level.name), ("format", .text s.format.name)])]

/-! ## Settings files -/

inductive Unusable where
  | unnamed
  | missing (path : String)
  | obstructed (obstacle : Obstacle)
  | unreadable
  | faulty (fault : Yaml.Fault)
  | invalid (issues : List Issue)
  | unwritable

def Unusable.message : Unusable → String
  | .unnamed => "no settings file is named"
  | .missing path => "Config file not found: " ++ Path.shown path
  | .obstructed obstacle => obstacle.message
  | .unreadable => "not a text file"
  | .faulty fault => fault.message
  | .invalid issues =>
    String.intercalate "; " (issues.map fun i => i.place ++ ": " ++ i.defect.message)
  | .unwritable => Obstacle.unwritable.message

def Unusable.ofIssues (issues : List Issue) : Unusable :=
  if issues.all (·.defect.isWritable) then .invalid issues else .unwritable

/-- How deep sections and their fields stand in a document. -/
def depth : Nat := 2

def ofText (text : String) : Except Unusable Settings :=
  match Yaml.read depth text with
  | .error fault => .error (.faulty fault)
  | .ok d =>
    match ofDocument d.orEmpty with
    | .ok settings => .ok settings
    | .error issues => .error (.ofIssues issues)

/-- The settings in a file. A place that cannot be reached counts as one where nothing stands,
unless its name is too long to be looked for. -/
def load (files : Files) (path : String) : Except Unusable Settings :=
  match files.reach (Text.points (Path.shown path)) with
  | .error .longName => .error (.obstructed .longName)
  | .error _ => .error (.missing path)
  | .ok place =>
    match files.node? place with
    | none => .error (.missing path)
    | some .folder => .error (.obstructed .folderInPlace)
    | some node =>
      match node.text? with
      | none => .error .unreadable
      | some text => ofText text

end Settings

end PubSub
