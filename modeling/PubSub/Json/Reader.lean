import PubSub.Document
import PubSub.Decimal.Reading
import PubSub.Json.Escape

/-!
# Read documents

A text as one document, blanks around every part. Whole numbers are exact, a
point or a power makes a floating point number. Of a repeated name the last
value counts, in the place of the first. A reader may have limits; the fault that
comes first in the text is told.
-/

namespace PubSub.Json

/-! ## Limits -/

/-- What is refused although it is well written. -/
structure Limits where
  digits : Option Nat
  nesting : Option Nat

def Limits.none : Limits := ⟨.none, .none⟩

/-- Whether a count is beyond a limit. -/
def exceeds (count : Nat) : Option Nat → Bool
  | .some limit => limit < count
  | .none => false

inductive ReadFault where
  | malformed
  | longNumber (digits : Option Nat)
  | deepList
  | deepMap
  deriving DecidableEq

/-- What is said of too many lists or mappings inside each other. -/
def tooDeep (what : String) : String :=
  "maximum recursion depth exceeded while decoding a JSON " ++ what ++ " from a unicode string"

def ReadFault.message : ReadFault → String
  | .malformed => "malformed text"
  | .longNumber digits => Decimal.tooLong digits
  | .deepList => tooDeep "array"
  | .deepMap => tooDeep "object"

abbrev Read := Except ReadFault

def ofOption {α : Type} : Option α → Read α
  | some found => .ok found
  | none => .error .malformed

def isBlank (c : Char) : Bool := c = ' ' || c = '\t' || c = '\n' || c = '\r'

def skipBlanks (cs : List Char) : List Char := cs.dropWhile isBlank

/-! ## Numbers -/

/-- Digits before a point: a zero stands alone. -/
def wholePart (cs : List Char) : List Char × List Char :=
  match cs with
  | '0' :: rest => (['0'], rest)
  | cs => (cs.takeWhile Decimal.isDigit, cs.dropWhile Decimal.isDigit)

/-- Digits after a point; a point without digits belongs to what follows. -/
def fractionPart (cs : List Char) : List Char × List Char :=
  match cs with
  | '.' :: rest =>
    let ds := rest.takeWhile Decimal.isDigit
    if ds.isEmpty then ([], cs) else (ds, rest.dropWhile Decimal.isDigit)
  | cs => ([], cs)

def powerPart (cs : List Char) : Option Int × List Char :=
  match cs with
  | e :: rest =>
    if e = 'e' || e = 'E' then
      let (negative, body) := Decimal.sign rest
      let ds := body.takeWhile Decimal.isDigit
      if ds.isEmpty then (none, cs)
      else
        let power : Int := Decimal.ofDigits ds
        (some (if negative then -power else power), body.dropWhile Decimal.isDigit)
    else (none, cs)
  | [] => (none, [])

def readNumber (limits : Limits) (negative : Bool) (cs : List Char) : Read (Document × List Char) :=
  let (whole, rest) := wholePart cs
  if whole.isEmpty then .error .malformed
  else
    let (fraction, rest) := fractionPart rest
    let (power, rest) := powerPart rest
    if fraction.isEmpty && power.isNone then
      if exceeds whole.length limits.digits then .error (.longNumber (some whole.length))
      else
        let size : Int := Decimal.ofDigits whole
        .ok (.int (if negative then -size else size), rest)
    else
      let number : Decimal.Scientific :=
        ⟨negative, Decimal.ofDigits (whole ++ fraction), power.getD 0 - fraction.length⟩
      .ok (.float number.toFloat, rest)

/-! ## Words -/

def words : List (List Char × Document) :=
  [("null".toList, .null), ("true".toList, .bool true), ("false".toList, .bool false),
    ("NaN".toList, .float (0 / 0)), ("Infinity".toList, .float (1 / 0)),
    ("-Infinity".toList, .float (-1 / 0))]

def dropStart? : List Char → List Char → Option (List Char)
  | [], cs => some cs
  | _ :: _, [] => none
  | w :: word, c :: cs => if w = c then dropStart? word cs else none

def readWord (cs : List Char) : Option (Document × List Char) :=
  words.findSome? fun (word, value) => (dropStart? word cs).map (value, ·)

/-! ## Documents -/

/-- Whether two names are the same. -/
def isSameName : Document → Document → Bool
  | .text a, .text b => a = b
  | .ragged a, .ragged b => a = b
  | _, _ => false

def putEntry (key value : Document) : List (Document × Document) → List (Document × Document)
  | [] => [(key, value)]
  | (k, v) :: rest =>
    if isSameName k key then (k, value) :: rest else (k, v) :: putEntry key value rest

mutual

def readValue (limits : Limits) : (fuel level : Nat) → List Char → Read (Document × List Char)
  | 0, _, _ => .error .malformed
  | fuel + 1, level, cs =>
    match cs with
    | '"' :: rest => (ofOption (readQuoted rest)).map fun (ps, rest) => (.ofPoints ps, rest)
    | '[' :: rest =>
      if exceeds (level + 1) limits.nesting then .error .deepList
      else
        match skipBlanks rest with
        | ']' :: rest => .ok (.list [], rest)
        | rest =>
          (readItems limits fuel (level + 1) rest).map fun (items, rest) => (.list items, rest)
    | '{' :: rest =>
      if exceeds (level + 1) limits.nesting then .error .deepMap
      else
        match skipBlanks rest with
        | '}' :: rest => .ok (.map [], rest)
        | rest =>
          (readEntries limits fuel (level + 1) [] rest).map fun (entries, rest) =>
            (.map entries, rest)
    | cs =>
      match readWord cs with
      | some found => .ok found
      | none =>
        match cs with
        | '-' :: rest => readNumber limits true rest
        | cs => readNumber limits false cs

def readItems (limits : Limits) : (fuel level : Nat) → List Char → Read (List Document × List Char)
  | 0, _, _ => .error .malformed
  | fuel + 1, level, cs => do
    let (item, rest) ← readValue limits fuel level cs
    match skipBlanks rest with
    | ']' :: rest => return ([item], rest)
    | ',' :: rest =>
      let (items, rest) ← readItems limits fuel level (skipBlanks rest)
      return (item :: items, rest)
    | _ => throw .malformed

/-- Named values up to the closing brace, added to those read before. -/
def readEntries (limits : Limits) : (fuel level : Nat) → List (Document × Document) → List Char →
    Read (List (Document × Document) × List Char)
  | 0, _, _, _ => .error .malformed
  | fuel + 1, level, before, cs =>
    match cs with
    | '"' :: rest => do
      let (key, rest) ← ofOption (readQuoted rest)
      match skipBlanks rest with
      | ':' :: rest =>
        let (value, rest) ← readValue limits fuel level (skipBlanks rest)
        let entries := putEntry (.ofPoints key) value before
        match skipBlanks rest with
        | '}' :: rest => return (entries, rest)
        | ',' :: rest => readEntries limits fuel level entries (skipBlanks rest)
        | _ => throw .malformed
      | _ => throw .malformed
    | _ => .error .malformed

end

/-- A whole text as one document within limits. Every part takes up a character, so the length of
the text bounds the work. -/
def read (limits : Limits) (s : String) : Read Document := do
  let cs := s.toList
  let (value, rest) ← readValue limits (2 * cs.length + 2) 0 (skipBlanks cs)
  if (skipBlanks rest).isEmpty then return value else throw .malformed

def read? (s : String) : Option Document := (read .none s).toOption

end PubSub.Json
