import PubSub.Yaml.Date
import PubSub.Yaml.Number

/-!
# Kinds

What a node is to be read as. A tag says it; a plain scalar without a tag says
it by its form: a truth value, a number, nothing, a date, or itself.
-/

namespace PubSub.Yaml

inductive Kind where
  | text
  | null
  | truth
  | int
  | float
  | bytes
  | date
  | list
  | map
  | set
  | pairs
  /-- The name under which a mapping takes over the entries of others. -/
  | merge
  | standIn
  /-- A kind that no document is made for. -/
  | unknown
  deriving DecidableEq

namespace Kind

/-! ## Tags -/

def core (name : String) : String := "tag:yaml.org,2002:" ++ name

def tags : List (String × Kind) :=
  [(core "str", .text), (core "null", .null), (core "bool", .truth), (core "int", .int),
    (core "float", .float), (core "binary", .bytes), (core "timestamp", .date), (core "seq", .list),
    (core "map", .map), (core "set", .set), (core "omap", .pairs), (core "pairs", .pairs),
    (core "merge", .merge), (core "value", .standIn)]

def ofTag (tag : String) : Kind := (tags.lookup tag).getD .unknown

/-- Lists and mappings are no names. -/
def isName : Kind → Bool
  | .list | .map | .set | .pairs => false
  | _ => true

/-! ## Words -/

def trueWords : List String := ["yes", "Yes", "YES", "true", "True", "TRUE", "on", "On", "ON"]

def falseWords : List String := ["no", "No", "NO", "false", "False", "FALSE", "off", "Off", "OFF"]

def nullWords : List String := ["", "~", "null", "Null", "NULL"]

def infinityWords : List String := [".inf", ".Inf", ".INF"]

def nanWords : List String := [".nan", ".NaN", ".NAN"]

/-- Marks that a plain text cannot begin with. -/
def strayMarks : List String := ["!", "&", "*"]

/-! ## Numbers -/

open Decimal (isDigit)

def isDigitOrLine (c : Char) : Bool := isDigit c || c = '_'

def isSixtieth : List Char → Bool
  | [a] => isDigit a
  | [a, b] => '0' ≤ a && a ≤ '5' && isDigit b
  | _ => false

def isSixties (cs : List Char) : Bool :=
  match cs.splitOn ':' with
  | first :: more => first.all isDigitOrLine && !more.isEmpty && more.all isSixtieth
  | [] => false

def isInBase (base : Nat) (ds : List Char) : Bool :=
  ds.all fun c => c = '_' || Number.isOfBase base c

def isNatural : List Char → Bool
  | '0' :: 'b' :: ds => !ds.isEmpty && isInBase 2 ds
  | '0' :: 'x' :: ds => !ds.isEmpty && isInBase 16 ds
  | '0' :: ds => isInBase 8 ds
  | c :: ds => isDigit c && (ds.all isDigitOrLine || isSixties (c :: ds))
  | [] => false

def isInt (cs : List Char) : Bool := isNatural (Decimal.sign cs).2

def isPower : List Char → Bool
  | [] => true
  | e :: s :: ds => (e = 'e' || e = 'E') && Number.isSign s && !ds.isEmpty && ds.all isDigit
  | _ => false

/-- A number with a point between its digits. -/
def hasPoint (cs : List Char) : Bool :=
  match cs.dropWhile isDigitOrLine with
  | '.' :: rest => isPower (rest.dropWhile isDigitOrLine)
  | _ => false

def isSixtiesPoint (cs : List Char) : Bool :=
  match cs.dropWhile (· ≠ '.') with
  | '.' :: fraction => isSixties (cs.takeWhile (· ≠ '.')) && fraction.all isDigitOrLine
  | _ => false

/-- A floating point number without its sign. -/
def isUnsignedFloat (cs : List Char) : Bool :=
  infinityWords.contains (String.ofList cs) ||
    ((cs.head?.any isDigit) && (hasPoint cs || isSixtiesPoint cs))

/-- A number that begins with its point has no sign. -/
def startsWithPoint : List Char → Bool
  | '.' :: c :: rest => isDigit c && isPower (rest.dropWhile isDigitOrLine)
  | _ => false

def isFloat (cs : List Char) : Bool :=
  startsWithPoint cs || nanWords.contains (String.ofList cs)
    || isUnsignedFloat (Decimal.sign cs).2

/-! ## Plain texts -/

def withoutLineEnd (cs : List Char) : List Char :=
  if cs.getLast? = some '\n' && cs ≠ ['\n'] then cs.dropLast else cs

/-- The kind of a plain text; most stand for themselves. -/
def ofPlain (s : String) : Kind :=
  let cs := withoutLineEnd s.toList
  let word := String.ofList cs
  if trueWords.contains word || falseWords.contains word then .truth
  else if isFloat cs then .float
  else if isInt cs then .int
  else if word = "<<" then .merge
  else if nullWords.contains word then .null
  else if Date.isEvident cs then .date
  else if word = "=" then .standIn
  else if strayMarks.contains word then .unknown
  else .text

/-- The kind of any text. No form admits half of a pair. -/
def ofPoints (ps : List Text.Point) : Kind :=
  match Text.string? ps with
  | some s => .ofPlain s
  | none => .text

end Kind

end PubSub.Yaml
