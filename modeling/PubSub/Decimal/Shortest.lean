import PubSub.Decimal.Rounded

/-!
# Shortest decimals

A binary floating point number as the decimal with the fewest digits that still
reads back as the same number. The number `m * 2 ^ q` stands for an interval of
reals; on each decimal grid its two neighbours are tried, coarse grids first.
-/

namespace PubSub.Decimal

/-! ## Parts of a number -/

inductive Parts where
  | finite (negative : Bool) (mantissa : Nat) (exponent : Int)
  | infinite (negative : Bool)
  | undefined

def Parts.ofBits (bits : Nat) : Parts :=
  let negative := bits / twoTo 63 % 2 == 1
  let power : Nat := bits / twoTo 52 % 2048
  let fraction := bits % twoTo 52
  if power = 2047 then
    if fraction = 0 then .infinite negative else .undefined
  else if power = 0 then .finite negative fraction (-1074)
  else .finite negative (twoTo 52 + fraction) ((power : Int) - 1075)

def Parts.ofFloat (x : Float) : Parts := .ofBits x.toBits.toNat

/-! ## The interval and the grids -/

structure Scaled where
  factor : Nat
  two : Int
  ten : Int

/-- Powers are moved to the side on which their exponent is positive. -/
def Scaled.le (a b : Scaled) : Bool :=
  let two := a.two - b.two
  let ten := a.ten - b.ten
  a.factor * twoTo two.toNat * tenTo ten.toNat
    ≤ b.factor * twoTo (-two).toNat * tenTo (-ten).toNat

def Scaled.lt (a b : Scaled) : Bool := !b.le a

/-- The reals that round to one number. The ends belong to it exactly if its mantissa is even. -/
structure Interval where
  low : Scaled
  high : Scaled
  closed : Bool

def Interval.contains (i : Interval) (x : Scaled) : Bool :=
  if i.closed then i.low.le x && x.le i.high else i.low.lt x && x.lt i.high

/-- Below a power of two the neighbours lie twice as close. -/
def Interval.around (mantissa : Nat) (exponent : Int) : Interval where
  low :=
    if mantissa = twoTo 52 ∧ -1074 < exponent then ⟨4 * mantissa - 1, exponent - 2, 0⟩
    else ⟨4 * mantissa - 2, exponent - 2, 0⟩
  high := ⟨4 * mantissa + 2, exponent - 2, 0⟩
  closed := mantissa % 2 == 0

/-- The power of ten of the leading digit of `mantissa * 2 ^ exponent`, found on the value times
`10 ^ 400`, which is above one for every number. -/
def leadingPower (mantissa : Nat) (exponent : Int) : Int :=
  let lifted := mantissa * twoTo exponent.toNat * tenTo 400 / twoTo (-exponent).toNat
  ((digits lifted).length : Int) - 401

def gridFloor (mantissa : Nat) (exponent power : Int) : Nat :=
  mantissa * twoTo exponent.toNat * tenTo (-power).toNat
    / (twoTo (-exponent).toNat * tenTo power.toNat)

/-- The neighbour of the value on one grid that reads back as it, the nearer one if both do. -/
def onGrid? (mantissa : Nat) (exponent power : Int) : Option Nat :=
  let interval := Interval.around mantissa exponent
  let low := gridFloor mantissa exponent power
  let lowFits := 0 < low && interval.contains ⟨low, 0, power⟩
  let highFits := interval.contains ⟨low + 1, 0, power⟩
  if lowFits && highFits then
    let middle : Scaled := ⟨2 * low + 1, -1, power⟩
    let value : Scaled := ⟨mantissa, exponent, 0⟩
    if value.lt middle then some low
    else if middle.lt value then some (low + 1)
    else some (low + low % 2)
  else if lowFits then some low
  else if highFits then some (low + 1)
  else none

/-- Digits and power of ten of the coarsest grid that has a fitting neighbour. Seventeen digits
always suffice. -/
def shortest (mantissa : Nat) (exponent : Int) : Nat × Int :=
  let lead := leadingPower mantissa exponent
  let grids := (List.range 17).map fun (n : Nat) => lead - (n : Int)
  (grids.findSome? fun power => (onGrid? mantissa exponent power).map (·, power)).getD (0, 0)

/-! ## Printing -/

/-- Where positional notation ends, counted by the position of the point: from sixteen digits
before it and from four zeros after it a power of ten is written. -/
def floatChars (mantissa : Nat) (exponent : Int) : List Char :=
  if mantissa = 0 then ['0', '.', '0']
  else
    let (number, power) := shortest mantissa exponent
    let written := digits number
    let point : Int := written.length + power
    let significant := dropTrailingZeros written
    if -4 < point ∧ point ≤ 16 then
      if point ≤ 0 then
        ['0', '.'] ++ List.replicate (-point).toNat '0' ++ significant
      else
        let whole := significant.take point.toNat
        let filled := whole ++ List.replicate (point.toNat - whole.length) '0'
        let rest := significant.drop point.toNat
        filled ++ '.' :: (if rest.isEmpty then ['0'] else rest)
    else
      let power := point - 1
      let sign := if power < 0 then '-' else '+'
      match significant with
      | [] => []
      | first :: rest =>
        first :: (if rest.isEmpty then [] else '.' :: rest) ++ ['e', sign] ++ padded power.natAbs

def minus (negative : Bool) : List Char := if negative then ['-'] else []

def floatText (x : Float) : String :=
  match Parts.ofFloat x with
  | .finite negative m e => String.ofList (minus negative ++ floatChars m e)
  | .infinite negative => String.ofList (minus negative ++ ['i', 'n', 'f'])
  | .undefined => "nan"

def tenthsText (x : Float) : String :=
  match Parts.ofFloat x with
  | .finite negative m e => String.ofList (minus negative ++ pointed (tenths m e))
  | .infinite negative => String.ofList (minus negative ++ ['i', 'n', 'f'])
  | .undefined => "nan"

end PubSub.Decimal
