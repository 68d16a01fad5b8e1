import PubSub.Text.Point

/-!
# Escaped text

Text between double quotes. A character outside the basic plane is two code
units; every unit that is not printable ASCII is written as an escape, so the
written form is ASCII. `readQuoted_quoted`: a written text is read back, whatever
follows its closing quote.
-/

namespace PubSub.Json

open Text (Point points)

/-! ## Code units -/

def isHigh (unit : Nat) : Bool := 0xd800 ≤ unit && unit < 0xdc00

def isLow (unit : Nat) : Bool := 0xdc00 ≤ unit && unit < 0xe000

def charUnits (c : Char) : List Nat :=
  if c.toNat < 0x10000 then [c.toNat]
  else [0xd800 + (c.toNat - 0x10000) / 0x400, 0xdc00 + (c.toNat - 0x10000) % 0x400]

def pointUnits : Point → List Nat
  | .char c => charUnits c
  | p => [p.code]

def pairChar (high low : Nat) : Char :=
  Char.ofNat (0x10000 + (high - 0xd800) * 0x400 + (low - 0xdc00))

/-- The points of units. Two halves that fit are one character. -/
def ofUnits : List Nat → List Point
  | [] => []
  | [unit] => [.ofCode unit]
  | high :: low :: rest =>
    if isHigh high && isLow low then .char (pairChar high low) :: ofUnits rest
    else .ofCode high :: ofUnits (low :: rest)

/-! ## Escapes -/

def hexDigit (n : Nat) : Char :=
  if n < 10 then Char.ofNat (48 + n) else Char.ofNat (87 + n)

def hexValue? (c : Char) : Option Nat :=
  if '0' ≤ c && c ≤ '9' then some (c.toNat - 48)
  else if 'a' ≤ c && c ≤ 'f' then some (c.toNat - 87)
  else if 'A' ≤ c && c ≤ 'F' then some (c.toNat - 55)
  else none

def shortEscapes : List (Nat × Char) :=
  [(34, '"'), (92, '\\'), (8, 'b'), (12, 'f'), (10, 'n'), (13, 'r'), (9, 't')]

def escapeUnit (unit : Nat) : List Char :=
  match shortEscapes.lookup unit with
  | some letter => ['\\', letter]
  | none =>
    if 32 ≤ unit && unit < 127 then [Char.ofNat unit]
    else
      ['\\', 'u', hexDigit (unit / 0x1000 % 16), hexDigit (unit / 0x100 % 16),
        hexDigit (unit / 0x10 % 16), hexDigit (unit % 16)]

def escapeUnits (units : List Nat) : List Char := units.flatMap escapeUnit

def escape (ps : List Point) : List Char := escapeUnits (ps.flatMap pointUnits)

def quotedPoints (ps : List Point) : List Char := '"' :: escape ps ++ ['"']

def quoted (s : String) : List Char := quotedPoints (points s)

def letterUnit? (c : Char) : Option Nat :=
  match c with
  | '"' => some 34
  | '\\' => some 92
  | '/' => some 47
  | 'b' => some 8
  | 'f' => some 12
  | 'n' => some 10
  | 'r' => some 13
  | 't' => some 9
  | _ => none

/-- The units up to the closing quote, and what follows it. Control characters must be escaped. -/
def readUnits : List Char → Option (List Nat × List Char)
  | [] => none
  | '"' :: rest => some ([], rest)
  | '\\' :: 'u' :: a :: b :: c :: d :: rest => do
    let a ← hexValue? a
    let b ← hexValue? b
    let c ← hexValue? c
    let d ← hexValue? d
    let (units, rest) ← readUnits rest
    return ((0x1000 * a + 0x100 * b + 0x10 * c + d) :: units, rest)
  | '\\' :: c :: rest => do
    let unit ← letterUnit? c
    let (units, rest) ← readUnits rest
    return (unit :: units, rest)
  | c :: rest =>
    if c.toNat < 32 || c = '\\' then none
    else do
      let (units, rest) ← readUnits rest
      return (c.toNat :: units, rest)

def readQuoted (cs : List Char) : Option (List Point × List Char) :=
  (readUnits cs).map fun (units, rest) => (ofUnits units, rest)

/-! ## Reading back -/

theorem ofCode_toNat (c : Char) : Point.ofCode c.toNat = .char c := Text.Point.ofCode_code (.char c)

theorem isHigh_toNat (c : Char) : isHigh c.toNat = false := by
  have hv : c.toNat.isValidChar := c.valid
  simp only [Nat.isValidChar] at hv
  simp only [isHigh, Bool.and_eq_false_iff, decide_eq_false_iff_not]
  omega

theorem ofUnits_charUnits (c : Char) (rest : List Nat) :
    ofUnits (charUnits c ++ rest) = .char c :: ofUnits rest := by
  have hv : c.toNat.isValidChar := c.valid
  simp only [Nat.isValidChar] at hv
  unfold charUnits
  split
  · cases rest with
    | nil => simp only [List.append_nil, ofUnits, ofCode_toNat]
    | cons u rest =>
      rw [List.cons_append, List.nil_append, ofUnits, isHigh_toNat, ofCode_toNat]
      rfl
  · have hh : isHigh (0xd800 + (c.toNat - 0x10000) / 0x400) = true := by
      simp only [isHigh, Bool.and_eq_true, decide_eq_true_eq]; omega
    have hl : isLow (0xdc00 + (c.toNat - 0x10000) % 0x400) = true := by
      simp only [isLow, Bool.and_eq_true, decide_eq_true_eq]; omega
    have hn : 0x10000 + (0xd800 + (c.toNat - 0x10000) / 0x400 - 0xd800) * 0x400
        + (0xdc00 + (c.toNat - 0x10000) % 0x400 - 0xdc00) = c.toNat := by omega
    rw [List.cons_append, List.cons_append, List.nil_append, ofUnits, hh, hl]
    simp only [Bool.and_self, if_true, pairChar, hn, Char.ofNat_toNat]

theorem ofUnits_flatMap (s : List Char) : ofUnits (s.flatMap charUnits) = s.map .char := by
  induction s with
  | nil => rfl
  | cons c s ih => rw [List.flatMap_cons, ofUnits_charUnits, ih, List.map_cons]

theorem flatMap_pointUnits (s : String) :
    (points s).flatMap pointUnits = s.toList.flatMap charUnits := by
  rw [points, List.flatMap_map]
  rfl

theorem charUnits_lt (c : Char) : ∀ unit ∈ charUnits c, unit < 0x10000 := by
  have hv : c.toNat.isValidChar := c.valid
  simp only [Nat.isValidChar] at hv
  intro unit hu
  unfold charUnits at hu
  split at hu <;> simp only [List.mem_cons, List.not_mem_nil, or_false] at hu <;> omega

theorem hexValue?_hexDigit : ∀ n < 16, hexValue? (hexDigit n) = some n := by decide

theorem letterUnit?_of_mem : ∀ p ∈ shortEscapes, p.2 ≠ 'u' ∧ letterUnit? p.2 = some p.1 := by
  decide

theorem toNat_ofNat : ∀ n < 127, (Char.ofNat n).toNat = n := by decide

theorem readUnits_plain {c : Char} (h : 32 ≤ c.toNat) (hq : c ≠ '"') (hb : c ≠ '\\')
    (rest : List Char) :
    readUnits (c :: rest) = (readUnits rest).map fun (units, rest) => (c.toNat :: units, rest) := by
  rw [readUnits]
  · rw [if_neg (by simp [hb]; omega)]
    cases readUnits rest <;> rfl
  · exact hq
  · intro a b c d r hc
    exact absurd hc hb
  · intro a r hc
    exact absurd hc hb

theorem readUnits_escapeUnit {unit : Nat} (h : unit < 0x10000) (rest : List Char) :
    readUnits (escapeUnit unit ++ rest)
      = (readUnits rest).map fun (units, rest) => (unit :: units, rest) := by
  unfold escapeUnit
  split
  case h_1 letter hl =>
    obtain ⟨before, after, hp, -⟩ := List.lookup_eq_some_iff.mp hl
    have ⟨hne, hu⟩ := letterUnit?_of_mem (unit, letter) (by simp [hp])
    rw [List.cons_append, List.cons_append, List.nil_append, readUnits, hu]
    · cases readUnits rest <;> rfl
    · intro a b c d r hc
      exact absurd hc hne
  case h_2 hl =>
    split
    case isTrue hp =>
      have hp : 32 ≤ unit ∧ unit < 127 := by simpa using hp
      have hn := toNat_ofNat unit hp.2
      rw [List.cons_append, List.nil_append, readUnits_plain (by omega), hn]
      · intro hc
        rw [hc] at hn
        subst hn
        exact absurd hl (by decide)
      · intro hc
        rw [hc] at hn
        subst hn
        exact absurd hl (by decide)
    case isFalse =>
      simp only [List.cons_append, List.nil_append]
      rw [readUnits, hexValue?_hexDigit _ (by omega), hexValue?_hexDigit _ (by omega),
        hexValue?_hexDigit _ (by omega), hexValue?_hexDigit _ (by omega)]
      have hs : 0x1000 * (unit / 0x1000 % 16) + 0x100 * (unit / 0x100 % 16)
          + 0x10 * (unit / 0x10 % 16) + unit % 16 = unit := by omega
      cases readUnits rest with
      | none => rfl
      | some p => simp only [Option.bind_eq_bind, Option.bind_some, hs]; rfl

theorem readUnits_escapeUnits {units : List Nat} (h : ∀ unit ∈ units, unit < 0x10000)
    (rest : List Char) : readUnits (escapeUnits units ++ '"' :: rest) = some (units, rest) := by
  induction units with
  | nil => rfl
  | cons unit units ih =>
    rw [escapeUnits, List.flatMap_cons, List.append_assoc,
      readUnits_escapeUnit (h unit (by simp)), ← escapeUnits,
      ih fun u hu => h u (List.mem_cons_of_mem _ hu)]
    rfl

theorem readQuoted_quoted (s : String) (rest : List Char) :
    readQuoted ((quoted s).tail ++ rest) = some (points s, rest) := by
  have h : ∀ unit ∈ s.toList.flatMap charUnits, unit < 0x10000 := by
    intro unit hu
    obtain ⟨c, -, hc⟩ := List.mem_flatMap.mp hu
    exact charUnits_lt c unit hc
  rw [quoted, quotedPoints, List.cons_append, List.tail_cons, List.append_assoc, readQuoted, escape,
    flatMap_pointUnits, List.cons_append, List.nil_append, readUnits_escapeUnits h, Option.map_some]
  simp only [ofUnits_flatMap, points]

end PubSub.Json
