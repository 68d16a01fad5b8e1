import PubSub.Decimal.Digits

/-!
# Rounded decimals

Quotients rounded to the nearest whole number, a half going to the even
neighbour, and the two printed forms that need it: one digit after the point,
and six significant digits.
-/

namespace PubSub.Decimal

/-- The whole number nearest to `num / den`; a half goes to the even neighbour. -/
def nearest (num den : Nat) : Nat :=
  let low := num / den
  let twice := 2 * (num % den)
  if twice < den then low
  else if den < twice then low + 1
  else low + low % 2

theorem nearest_low {num den : Nat} (h : 2 * (num % den) < den) : nearest num den = num / den := by
  simp [nearest, h]

theorem nearest_high {num den : Nat} (h : den < 2 * (num % den)) :
    nearest num den = num / den + 1 := by
  have : ¬ 2 * (num % den) < den := by omega
  simp [nearest, h, this]

/-- Twice the distance between a quotient and its rounding is at most one unit. -/
theorem nearest_within {num den : Nat} (hd : 0 < den) :
    2 * num ≤ 2 * (nearest num den) * den + den ∧ 2 * (nearest num den) * den ≤ 2 * num + den := by
  have split : num = den * (num / den) + num % den := (Nat.div_add_mod num den).symm
  have small := Nat.mod_lt num hd
  have comm : (num / den) * den = den * (num / den) := Nat.mul_comm _ _
  unfold nearest
  simp only
  split
  · constructor <;> rw [Nat.mul_assoc, comm] <;> omega
  · split
    · have : (num / den + 1) * den = den * (num / den) + den := by
        rw [Nat.add_mul, comm, Nat.one_mul]
      constructor <;> rw [Nat.mul_assoc, this] <;> omega
    · have tie : 2 * (num % den) = den := by omega
      rcases Nat.mod_two_eq_zero_or_one (num / den) with even | odd
      · rw [even, Nat.add_zero]
        constructor <;> rw [Nat.mul_assoc, comm] <;> omega
      · rw [odd]
        have : (num / den + 1) * den = den * (num / den) + den := by
          rw [Nat.add_mul, comm, Nat.one_mul]
        constructor <;> rw [Nat.mul_assoc, this] <;> omega

/-! ## One digit after the point -/

def tenths (mantissa : Nat) (exponent : Int) : Nat :=
  if 0 ≤ exponent then mantissa * 10 * twoTo exponent.toNat
  else nearest (mantissa * 10) (twoTo (-exponent).toNat)

def pointed (tenths : Nat) : List Char :=
  digits (tenths / 10) ++ ['.', digit (tenths % 10)]

/-! ## Six significant digits -/

def toBinary64 (n : Nat) : Nat :=
  if n < twoTo 53 then n
  else
    let unit := twoTo (n.log2 - 52)
    nearest n unit * unit

def dropTrailingZeros (cs : List Char) : List Char :=
  (cs.reverse.dropWhile (· == '0')).reverse

def padded (n : Nat) : List Char :=
  if n < 10 then ['0', digit n] else digits n

/-- At most six significant digits. Below a million the number is written out, from there on with
a power of ten. -/
def sixDigits (n : Nat) : List Char :=
  let n := toBinary64 n
  if n < 1000000 then digits n
  else
    let power := (digits n).length - 1
    let head := nearest n (tenTo (power - 5))
    let power := if head < 1000000 then power else power + 1
    match digits head with
    | [] => []
    | first :: rest =>
      let tail := dropTrailingZeros rest
      first :: (if tail.isEmpty then [] else '.' :: tail) ++ ['e', '+'] ++ padded power

end PubSub.Decimal
