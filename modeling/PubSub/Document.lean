import PubSub.Text.Point

/-!
# Documents

The values of a data format: settings files, written details and the fields of
log events are all documents. `isBlank` is the reading under which an absent
document, an empty one and a zero all count as nothing.
-/

namespace PubSub

inductive Document where
  | null
  | bool (b : Bool)
  | int (n : Int)
  | float (x : Float)
  | text (s : String)
  /-- A text with halves of pairs, which is no string. -/
  | ragged (points : List Text.Point)
  | bytes (data : List UInt8)
  | list (items : List Document)
  | map (entries : List (Document × Document))
  /-- A scalar of a kind that no field accepts, such as a date. -/
  | other
  deriving Inhabited

namespace Document

/-! ## Fields -/

/-- The value of a named field; of a repeated name the last entry counts. -/
def fieldOf? (name : String) : List (Document × Document) → Option Document
  | [] => none
  | (key, value) :: rest =>
    match fieldOf? name rest with
    | some later => some later
    | none =>
      match key with
      | .text k => if k = name then some value else none
      | _ => none

def field? (name : String) : Document → Option Document
  | .map entries => fieldOf? name entries
  | _ => none

def record (fields : List (String × Document)) : Document :=
  .map (fields.map fun (name, value) => (.text name, value))

def ofPoints (ps : List Text.Point) : Document :=
  match Text.string? ps with
  | some s => .text s
  | none => .ragged ps

def ofOption (s : Option String) : Document :=
  match s with
  | some s => .text s
  | none => .null

/-! ## Blankness -/

def isBlank : Document → Bool
  | .null => true
  | .bool b => !b
  | .int n => n == 0
  | .float x => x == 0
  | .text s => s.isEmpty
  | .ragged points => points.isEmpty
  | .bytes data => data.isEmpty
  | .list items => items.isEmpty
  | .map entries => entries.isEmpty
  | .other => false

/-- A blank document counts as one without fields. -/
def orEmpty (d : Document) : Document :=
  if d.isBlank then .map [] else d

end Document

end PubSub
