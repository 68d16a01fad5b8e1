import PubSub.Failure
import PubSub.Json.Reader
import PubSub.Json.Writer

/-!
# Details of a subscriber

Callers give a list of texts with gaps; the store holds it as one text, a
written list without the gaps. Reading accepts any written document that has
elements.
-/

namespace PubSub

/-- Details as callers give them. A single text counts as the list of its characters. -/
inductive Details where
  | list (items : List (Option String))
  | text (s : String)
  | absent

namespace Details

def empty : Details := .list []

def charTexts (s : String) : List String := s.toList.map fun c => String.ofList [c]

def texts? : Details → Except Failure (List String)
  | .list items => .ok (items.filterMap id)
  | .text s => .ok (charTexts s)
  | .absent => .error (.notIterable .null)

def encodeTexts (texts : List String) : String := Json.text (.list (texts.map .text))

def encode (d : Details) : Except Failure String := d.texts?.map encodeTexts

/-! ## Reading -/

def isNull : Document → Bool
  | .null => true
  | _ => false

def elements : Document → Except Failure (List Document)
  | .list items => .ok items
  | .map entries => .ok (entries.map (·.1))
  | .text s => .ok ((charTexts s).map .text)
  | .ragged points => .ok (points.map fun p => .ofPoints [p])
  | .null | .bytes _ | .other => .error (.notIterable .null)
  | .bool _ => .error (.notIterable .bool)
  | .int _ => .error (.notIterable .int)
  | .float _ => .error (.notIterable .float)

/-- How large a stored text may be in its parts. -/
def limits : Json.Limits := ⟨some Decimal.digitLimit, some 991⟩

/-- The elements of a stored text without nulls; no text means no details. -/
def decode (raw : String) : Except Failure (List Document) :=
  if raw.isEmpty then .ok []
  else
    match Json.read limits raw with
    | .error fault => .error (.unreadableDetails fault)
    | .ok d => (elements d).map (·.filter fun item => !isNull item)

end Details

end PubSub
