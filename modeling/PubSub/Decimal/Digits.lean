/-!
# Decimal digits

Whole numbers as digits, most significant first, without leading zeros.
`ofDigits_digits`: reading the digits of a number gives the number back.
-/

namespace PubSub.Decimal

def digit (d : Nat) : Char := Char.ofNat (48 + d)

def digits (n : Nat) : List Char :=
  if n < 10 then [digit n] else digits (n / 10) ++ [digit (n % 10)]
termination_by n
decreasing_by omega

def signed (n : Int) : List Char :=
  if n < 0 then '-' :: digits n.natAbs else digits n.natAbs

def text (n : Int) : String := String.ofList (signed n)

/-- The most digits of a whole number that is read from a text or written to one. -/
def digitLimit : Nat := 4300

def isLong (n : Int) : Bool := digitLimit < (digits n.natAbs).length

/-- What is said of a whole number with more digits. They are counted where they are read. -/
def tooLong (count : Option Nat) : String :=
  let counted := match count with
    | some count => ": value has " ++ text count ++ " digits"
    | none => ""
  "Exceeds the limit (" ++ text digitLimit ++ " digits) for integer string conversion" ++ counted
    ++ "; use sys.set_int_max_str_digits() to increase the limit"

/-! ## Powers -/

def tenTo (n : Nat) : Nat := Nat.pow 10 n

def twoTo (n : Nat) : Nat := Nat.pow 2 n

/-! ## Reading -/

def isDigit (c : Char) : Bool := '0' ≤ c && c ≤ '9'

def digitValue? (c : Char) : Option Nat :=
  if isDigit c then some (c.toNat - 48)
  else if 'a' ≤ c && c ≤ 'f' then some (c.toNat - 87)
  else if 'A' ≤ c && c ≤ 'F' then some (c.toNat - 55)
  else none

/-- The number that digits of a base stand for; a character that is no digit of it refuses. -/
def ofBase? (base : Nat) (cs : List Char) : Option Nat :=
  cs.foldlM (fun n c =>
    match digitValue? c with
    | some d => if d < base then some (base * n + d) else none
    | none => none) 0

def ofDigits (cs : List Char) : Nat :=
  cs.foldl (fun n c => 10 * n + (c.toNat - 48)) 0

/-! ## Laws -/

theorem toNat_digit {d : Nat} (h : d < 10) : (digit d).toNat = 48 + d := by
  have valid : (48 + d).isValidChar := by left; omega
  rw [digit, Char.ofNat, dif_pos valid]
  show (Char.ofNatAux (48 + d) valid).val.toNat = 48 + d
  exact UInt32.toNat_ofNatLT

theorem isDigit_digit {d : Nat} (h : d < 10) : isDigit (digit d) = true := by
  have hd := toNat_digit h
  simp only [isDigit, Bool.and_eq_true, decide_eq_true_eq, Char.le_def, UInt32.le_iff_toNat_le]
  have : (digit d).val.toNat = 48 + d := hd
  rw [this]
  exact ⟨by simp, by show 48 + d ≤ 57; omega⟩

theorem isDigit_of_mem_digits (n : Nat) : ∀ c ∈ digits n, isDigit c = true := by
  induction n using Nat.strongRecOn with
  | _ n ih =>
    intro c hc
    rw [digits] at hc
    split at hc
    · rw [List.mem_singleton] at hc; subst hc; exact isDigit_digit ‹_›
    · rw [List.mem_append, List.mem_singleton] at hc
      rcases hc with hc | rfl
      · exact ih (n / 10) (by omega) c hc
      · exact isDigit_digit (Nat.mod_lt _ (by omega))

theorem ofDigits_append (cs : List Char) (c : Char) :
    ofDigits (cs ++ [c]) = 10 * ofDigits cs + (c.toNat - 48) := by
  simp [ofDigits]

theorem ofDigits_digits (n : Nat) : ofDigits (digits n) = n := by
  induction n using Nat.strongRecOn with
  | _ n ih =>
    rw [digits]
    split
    · rename_i h; simp [ofDigits, toNat_digit h]
    · rw [ofDigits_append, ih (n / 10) (by omega), toNat_digit (Nat.mod_lt _ (by omega))]
      omega

end PubSub.Decimal
