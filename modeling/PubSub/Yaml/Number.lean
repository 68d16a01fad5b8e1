import PubSub.Decimal.Reading
import PubSub.Text.Blank
import PubSub.Text.Digit
import PubSub.Text.Lower
import PubSub.Yaml.Fault

/-!
# Numbers

Scalars as numbers. Underscores count as nothing. A whole number may be in base
two, eight or sixteen behind a zero, a number of either kind may be in groups of
base sixty between colons, and digits may be of any script.
-/

namespace PubSub.Yaml.Number

open Text (Point points)

def isSign (c : Char) : Bool := c = '+' || c = '-'

def withoutLines (ps : List Point) : List Point := ps.filter (· ≠ .char '_')

/-! ## Parts -/

/-- A point as it counts in a number: digits and blanks of all scripts as those of one. -/
def plainChar : Point → Char
  | .half _ => '?'
  | .char c =>
    if c.toNat < 127 then c
    else if Text.isBlank c then ' '
    else
      match Text.digit? c with
      | some d => Decimal.digit d
      | none => '?'

def trimmed (ps : List Point) : List Char := Text.trim (ps.map plainChar)

def isOfBase (base : Nat) (c : Char) : Bool :=
  match Decimal.digitValue? c with
  | some d => d < base
  | none => false

/-- The letters that show a base after a zero. -/
def baseLetters : List (Nat × List Char) := [(2, ['b', 'B']), (8, ['o', 'O']), (16, ['x', 'X'])]

def unmarked (base : Nat) : List Char → List Char
  | '0' :: c :: ds => if ((baseLetters.lookup base).getD []).contains c then ds else '0' :: c :: ds
  | ds => ds

/-- Whether the count of digits is limited, as it is where reading takes more than linear time. -/
def isLimited (base : Nat) : Bool := (baseLetters.lookup base).isNone

def whole (base : Nat) (ps : List Point) : Except Fault Int :=
  let (negative, ds) := Decimal.sign (trimmed ps)
  let ds := unmarked base ds
  let count := (ds.takeWhile (isOfBase base)).length
  if isLimited base && Decimal.digitLimit < count then .error (.longNumber count)
  else
    match (if ds.isEmpty then none else Decimal.ofBase? base ds) with
    | some n => .ok (if negative then -(n : Int) else n)
    | none => .error (.notWhole ps base)

def real (ps : List Point) : Except Fault Float :=
  match Decimal.float? (trimmed ps) with
  | some x => .ok x
  | none => .error (.notReal ps)

/-! ## Base sixty -/

def ofSixties (groups : List Int) : Int := groups.foldl (fun n group => 60 * n + group) 0

/-- The sum of groups of base sixty, the least significant first, added up in that order. -/
def sumSixties (place : Nat) (sum : Float) : List Float → Except Fault Float
  | [] => .ok sum
  | group :: rest =>
    let weight := Float.ofNat place
    if weight.isInf then .error .vastPlace else sumSixties (60 * place) (sum + group * weight) rest

/-! ## Scalars -/

def groups (ps : List Point) : List (List Point) := ps.splitOn (.char ':')

def unsignedInt : List Point → Except Fault Int
  | [] => .error .emptyNumber
  | [.char '0'] => .ok 0
  | .char '0' :: .char 'b' :: ds => whole 2 ds
  | .char '0' :: .char 'x' :: ds => whole 16 ds
  | .char '0' :: ds => whole 8 (.char '0' :: ds)
  | ps =>
    if ps.contains (.char ':') then ((groups ps).mapM (whole 10)).map ofSixties else whole 10 ps

def signed : List Point → Bool × List Point
  | .char '-' :: rest => (true, rest)
  | .char '+' :: rest => (false, rest)
  | ps => (false, ps)

def int (ps : List Point) : Except Fault Int :=
  let ps := withoutLines ps
  let (negative, body) := signed ps
  if ps.isEmpty then .error .emptyNumber
  else (unsignedInt body).map fun n => if negative then -n else n

def unsignedFloat (ps : List Point) : Except Fault Float :=
  if ps = points ".inf" then .ok (1 / 0)
  else if ps = points ".nan" then .ok (0 / 0)
  else if ps.contains (.char ':') then do sumSixties 1 0 (← (groups ps).mapM real).reverse
  else real ps

def float (ps : List Point) : Except Fault Float :=
  let ps := Text.lower (withoutLines ps)
  let (negative, body) := signed ps
  if ps.isEmpty then .error .emptyNumber
  else (unsignedFloat body).map fun x => if negative then -x else x

end PubSub.Yaml.Number
