import PubSub.Decimal.Digits

/-!
# Reading decimals

Texts as floating point numbers: digits with at most one point, a power of ten,
a sign, and the words for infinity and for no number.
-/

namespace PubSub.Decimal

/-- A decimal `mantissa * 10 ^ power`. -/
structure Scientific where
  negative : Bool
  mantissa : Nat
  power : Int

def Scientific.magnitude (n : Nat) : Nat := n.log2 * 30102999566 / 100000000000

/-- The nearest floating point number. Powers beyond the range are cut before they are computed. -/
def Scientific.toFloat (s : Scientific) : Float :=
  let size := (magnitude s.mantissa : Int) + s.power
  let size' : Float :=
    if s.mantissa = 0 then 0
    else if 400 < size then 1 / 0
    else if size < -400 then 0
    else Float.ofScientific s.mantissa (s.power < 0) s.power.natAbs
  if s.negative then -size' else size'

def sign : List Char → Bool × List Char
  | '-' :: rest => (true, rest)
  | '+' :: rest => (false, rest)
  | rest => (false, rest)

def power? (cs : List Char) : Option Int :=
  let (negative, ds) := sign cs
  if ds.isEmpty || !ds.all isDigit then none
  else some (if negative then -(ofDigits ds : Int) else ofDigits ds)

/-- Digits around a point that may be missing, at least one of them, and a power that may be
missing. -/
def unsigned? (negative : Bool) (cs : List Char) : Option Scientific :=
  let whole := cs.takeWhile isDigit
  let rest := cs.dropWhile isDigit
  let (fraction, rest) :=
    match rest with
    | '.' :: rest => (rest.takeWhile isDigit, rest.dropWhile isDigit)
    | rest => ([], rest)
  if whole.isEmpty && fraction.isEmpty then none
  else
    let written (power : Int) : Scientific :=
      ⟨negative, ofDigits (whole ++ fraction), power - fraction.length⟩
    match rest with
    | [] => some (written 0)
    | c :: rest => if c = 'e' || c = 'E' then (power? rest).map written else none

def infinity (negative : Bool) : Float := if negative then -1 / 0 else 1 / 0

/-- A whole text as a number, words in any letter case. -/
def float? (cs : List Char) : Option Float :=
  let (negative, body) := sign cs
  let word := String.ofList (body.map Char.toLower)
  if word = "inf" || word = "infinity" then some (infinity negative)
  else if word = "nan" then some (0 / 0)
  else (unsigned? negative body).map Scientific.toFloat

end PubSub.Decimal
