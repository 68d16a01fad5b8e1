import Mathlib.Data.List.TakeWhile
import PubSub.Decimal.Reading
import PubSub.Decimal.Rounded

/-!
# Six significant digits

A whole number that is printed with six significant digits is read back as one that needs no more
(`unsigned?_sixDigits`, `isShort_shown`), and as itself exactly if it needs no more itself
(`shown_eq_iff`). So every number below a million is, and the next one that is not follows a million.
-/

namespace PubSub.Decimal

/-! ## Powers of ten and lengths -/

theorem tenTo_add (a b : Nat) : tenTo (a + b) = tenTo a * tenTo b := Nat.pow_add 10 a b

theorem tenTo_succ (n : Nat) : tenTo (n + 1) = 10 * tenTo n := by
  rw [Nat.add_comm, tenTo_add]
  rfl

theorem tenTo_pos (n : Nat) : 0 < tenTo n := Nat.pow_pos (by decide)

theorem tenTo_lt_tenTo {a b : Nat} : tenTo a < tenTo b ↔ a < b := Nat.pow_lt_pow_iff_right (by decide)

theorem length_digits_pos (n : Nat) : 0 < (digits n).length := by
  rw [digits]
  split <;> simp

theorem lt_tenTo_length (n : Nat) : n < tenTo (digits n).length := by
  induction n using Nat.strongRecOn with
  | _ n ih =>
    rw [digits]
    split
    · rename_i h
      exact h
    · have := ih (n / 10) (by omega)
      rw [List.length_append, List.length_singleton, tenTo_succ]
      omega

theorem tenTo_length_le {n : Nat} (hn : 0 < n) : tenTo ((digits n).length - 1) ≤ n := by
  induction n using Nat.strongRecOn with
  | _ n ih =>
    rw [digits]
    split
    · exact hn
    · have hle := ih (n / 10) (by omega) (by omega)
      obtain ⟨l, hl⟩ := Nat.exists_eq_succ_of_ne_zero (length_digits_pos (n / 10)).ne'
      rw [List.length_append, List.length_singleton, Nat.add_sub_cancel]
      rw [hl, Nat.succ_eq_add_one, Nat.add_sub_cancel] at hle
      rw [hl, Nat.succ_eq_add_one, tenTo_succ]
      omega

theorem length_digits {n k : Nat} (hl : tenTo k ≤ n) (hh : n < tenTo (k + 1)) :
    (digits n).length = k + 1 := by
  have hlow := tenTo_lt_tenTo.mp (hl.trans_lt (lt_tenTo_length n))
  have hhigh := tenTo_lt_tenTo.mp ((tenTo_length_le ((tenTo_pos k).trans_le hl)).trans_lt hh)
  omega

theorem digits_head (n : Nat) :
    ∃ k ds, k < 10 ∧ digits n = digit k :: ds ∧ (k = 0 → n = 0) := by
  induction n using Nat.strongRecOn with
  | _ n ih =>
    rw [digits]
    split
    · exact ⟨n, [], ‹_›, rfl, id⟩
    · obtain ⟨k, ds, hk, hds, hzero⟩ := ih (n / 10) (by omega)
      refine ⟨k, ds ++ [digit (n % 10)], hk, by rw [hds]; rfl, fun h => ?_⟩
      have := hzero h
      omega

theorem scale_of_large {n : Nat} (h : 1000000 ≤ n) : ∃ p, 0 < p ∧ (digits n).length = p + 6 ∧
    100000 * tenTo p ≤ n ∧ n < 1000000 * tenTo p := by
  have hlow := tenTo_length_le (by omega : 0 < n)
  have hhigh := lt_tenTo_length n
  have hlen : 6 < (digits n).length := tenTo_lt_tenTo.mp (h.trans_lt hhigh)
  obtain ⟨p, hp⟩ : ∃ p, (digits n).length = p + 6 := ⟨(digits n).length - 6, by omega⟩
  rw [hp, Nat.add_comm, tenTo_add] at hhigh
  rw [hp, show p + 6 - 1 = 5 + p by omega, tenTo_add] at hlow
  exact ⟨p, by omega, hp, hlow, hhigh⟩

/-! ## Rounding -/

section
variable {num den m : Nat} (hd : 0 < den)

include hd

theorem le_nearest (h : m * den ≤ num) : m ≤ nearest num den := by
  have hwithin := (@nearest_within num den hd).1
  by_contra hlt
  have hstep := Nat.mul_le_mul_right den (by omega : nearest num den + 1 ≤ m)
  rw [Nat.add_mul] at hstep
  rw [Nat.mul_assoc] at hwithin
  omega

theorem nearest_le (h : num ≤ m * den) : nearest num den ≤ m := by
  have hwithin := (@nearest_within num den hd).2
  by_contra hlt
  have hstep := Nat.mul_le_mul_right den (by omega : m + 1 ≤ nearest num den)
  rw [Nat.add_mul] at hstep
  rw [Nat.mul_assoc] at hwithin
  omega

theorem nearest_of_close (hl : 2 * (m * den) < 2 * num + den) (hh : 2 * num < 2 * (m * den) + den) :
    nearest num den = m := by
  obtain ⟨hlow, hhigh⟩ := @nearest_within num den hd
  rw [Nat.mul_assoc] at hlow hhigh
  have hle : nearest num den < m + 1 := by
    apply Nat.lt_of_mul_lt_mul_right (a := den)
    rw [Nat.add_mul]
    omega
  have hge : m < nearest num den + 1 := by
    apply Nat.lt_of_mul_lt_mul_right (a := den)
    rw [Nat.add_mul]
    omega
  omega

end

/-- A mantissa of 53 bits is off by less than one part in `2 ^ 53`. -/
theorem toBinary64_within (n : Nat) : ∃ unit, unit * 4503599627370496 ≤ n ∧
    2 * toBinary64 n ≤ 2 * n + unit ∧ 2 * n ≤ 2 * toBinary64 n + unit := by
  unfold toBinary64
  split
  · exact ⟨0, by omega, by omega, by omega⟩
  · rename_i h
    have hlog : 52 ≤ n.log2 := (Nat.le_log2 (by rintro rfl; exact h (by decide))).mpr
      ((by decide : 2 ^ 52 ≤ twoTo 53).trans (Nat.le_of_not_lt h))
    obtain ⟨k, hk⟩ := Nat.exists_eq_add_of_le hlog
    have hunit : twoTo k * 4503599627370496 ≤ n := by
      have hle := Nat.log2_self_le (n := n) (by rintro rfl; exact h (by decide))
      rwa [hk, Nat.pow_add, Nat.mul_comm] at hle
    have hpos : 0 < twoTo k := Nat.pow_pos (by decide)
    obtain ⟨hlow, hhigh⟩ := @nearest_within n _ hpos
    refine ⟨twoTo k, hunit, ?_, ?_⟩ <;>
    · simp only [hk, Nat.add_sub_cancel_left]
      rw [Nat.mul_assoc] at hlow hhigh
      omega

/-! ## What six digits show -/

/-- The number that is read off the first six digits. -/
def shown (n : Nat) : Nat :=
  let n := toBinary64 n
  if n < 1000000 then n
  else
    let power := (digits n).length - 6
    nearest n (tenTo power) * tenTo power

/-- A number that needs no more than six significant digits. -/
def IsShort (n : Nat) : Prop := ∃ m k, m < 1000000 ∧ n = m * tenTo k

theorem isShort_of_lt {n : Nat} (h : n < 1000000) : IsShort n := ⟨n, 0, h, (Nat.mul_one n).symm⟩

theorem not_isShort_succ_million : ¬IsShort 1000001 := by
  rintro ⟨m, k, hm, hn⟩
  cases k with
  | zero =>
    have : m * tenTo 0 = m := Nat.mul_one m
    omega
  | succ k =>
    rw [tenTo_succ, Nat.mul_left_comm] at hn
    omega

theorem shown_of_scale {n p : Nat} (hb : 1000000 ≤ toBinary64 n)
    (hl : 100000 * tenTo p ≤ toBinary64 n) (hh : toBinary64 n < 1000000 * tenTo p) :
    shown n = nearest (toBinary64 n) (tenTo p) * tenTo p := by
  have hlen : (digits (toBinary64 n)).length = p + 6 := by
    apply length_digits
    · rwa [Nat.add_comm, tenTo_add]
    · rwa [Nat.add_assoc, Nat.add_comm, tenTo_add]
  have hlarge : ¬toBinary64 n < 1000000 := by omega
  simp [shown, hlarge, hlen]

/-- The first six digits of a number that has more, as a number. They may be rounded up to a million. -/
theorem head_of_scale {n p : Nat} (hl : 100000 * tenTo p ≤ n) (hh : n < 1000000 * tenTo p) :
    100000 ≤ nearest n (tenTo p) ∧ nearest n (tenTo p) ≤ 1000000 :=
  ⟨le_nearest (tenTo_pos p) hl, nearest_le (tenTo_pos p) hh.le⟩

theorem isShort_shown (n : Nat) : IsShort (shown n) := by
  by_cases hb : toBinary64 n < 1000000
  · rw [shown, if_pos hb]
    exact isShort_of_lt hb
  · obtain ⟨p, -, -, hl, hh⟩ := scale_of_large (Nat.le_of_not_lt hb)
    have hhead := (head_of_scale hl hh).2
    rw [shown_of_scale (Nat.le_of_not_lt hb) hl hh]
    rcases Nat.lt_or_ge (nearest (toBinary64 n) (tenTo p)) 1000000 with hlt | hge
    · exact ⟨_, p, hlt, rfl⟩
    · refine ⟨1, 6 + p, by decide, ?_⟩
      rw [Nat.le_antisymm hhead hge, tenTo_add, Nat.one_mul]
      rfl

theorem toBinary64_of_lt {n : Nat} (h : n < 1000000) : toBinary64 n = n := by
  have : n < twoTo 53 := h.trans (by decide)
  simp [toBinary64, this]

theorem head_of_short {n : Nat} (h : IsShort n) (hn : 1000000 ≤ n) :
    ∃ m p, 100000 ≤ m ∧ m < 1000000 ∧ n = m * tenTo (p + 1) := by
  obtain ⟨m, k, hm, rfl⟩ := h
  obtain ⟨p, hp, -, hl, hh⟩ := scale_of_large hn
  have hk : p ≤ k := by
    by_contra hlt
    obtain ⟨j, rfl⟩ := Nat.exists_eq_add_of_lt (Nat.lt_of_not_le hlt)
    rw [Nat.add_assoc, tenTo_add, tenTo_succ, Nat.mul_left_comm (tenTo k)] at hl
    have hpos := Nat.le_mul_of_pos_right (tenTo k) (tenTo_pos j)
    have hlt := Nat.mul_lt_mul_of_pos_right hm (tenTo_pos k)
    omega
  obtain ⟨j, rfl⟩ := Nat.exists_eq_add_of_le hk
  have hsplit : m * tenTo (p + j) = m * tenTo j * tenTo p := by
    rw [tenTo_add, Nat.mul_comm (tenTo p), Nat.mul_assoc]
  rw [hsplit] at hl hh
  refine ⟨m * tenTo j, p - 1, Nat.le_of_mul_le_mul_right hl (tenTo_pos p),
    Nat.lt_of_mul_lt_mul_right hh, ?_⟩
  rw [hsplit, Nat.sub_add_cancel hp]

theorem shown_of_short {n : Nat} (h : IsShort n) : shown n = n := by
  rcases Nat.lt_or_ge n 1000000 with hlt | hge
  · simp [shown, toBinary64_of_lt hlt, hlt]
  obtain ⟨unit, hunit, hlow, hhigh⟩ := toBinary64_within n
  obtain ⟨m, p, hm, hm', rfl⟩ := head_of_short h hge
  have hten := tenTo_succ p
  have hb : 1000000 ≤ toBinary64 (m * tenTo (p + 1)) := by omega
  -- The unit is so small that rounding twice gives the same as rounding once.
  have hm₁ := Nat.mul_le_mul_right (tenTo (p + 1)) hm
  have hm₂ := Nat.mul_le_mul_right (tenTo (p + 1)) hm'
  rw [Nat.succ_mul] at hm₂
  generalize hn : m * tenTo (p + 1) = n at *
  generalize hbin : toBinary64 n = b at *
  have hsmall : unit < tenTo p := by omega
  rcases Nat.lt_or_ge b (100000 * tenTo (p + 1)) with hunder | hover
  -- A power of ten may come out just below itself, with a digit less.
  · have hshort : n = 1000000 * tenTo p := by
      have : m < 100000 + 1 := by
        apply Nat.lt_of_mul_lt_mul_right (a := tenTo (p + 1))
        rw [Nat.add_mul]
        omega
      have hm : m = 100000 := by omega
      subst hm
      omega
    rw [shown_of_scale (p := p) (by omega) (by omega) (by omega), hbin, hshort]
    congr 1
    exact nearest_of_close (tenTo_pos p) (by omega) (by omega)
  · rw [shown_of_scale (p := p + 1) (by omega) (by omega) (by omega), hbin, ← hn]
    congr 1
    exact nearest_of_close (tenTo_pos _) (by omega) (by omega)

theorem shown_eq_iff {n : Nat} : shown n = n ↔ IsShort n :=
  ⟨fun h => h ▸ isShort_shown n, shown_of_short⟩

/-! ## Trailing zeros -/

theorem ofDigits_zeros (cs : List Char) (k : Nat) :
    ofDigits (cs ++ List.replicate k '0') = ofDigits cs * tenTo k := by
  induction k with
  | zero => simp [tenTo]
  | succ k ih =>
    rw [List.replicate_succ', ← List.append_assoc, ofDigits_append, ih, tenTo_succ,
      Nat.mul_left_comm]
    simp

theorem dropTrailingZeros_zeros (cs : List Char) :
    ∃ k, dropTrailingZeros cs ++ List.replicate k '0' = cs := by
  have hz : (cs.reverse.takeWhile (· == '0')).reverse =
      List.replicate (cs.reverse.takeWhile (· == '0')).length '0' := by
    rw [List.eq_replicate_iff]
    refine ⟨List.length_reverse, fun c hc => ?_⟩
    simpa using List.mem_takeWhile_imp (List.mem_reverse.mp hc)
  refine ⟨(cs.reverse.takeWhile (· == '0')).length, ?_⟩
  rw [← hz, dropTrailingZeros, ← List.reverse_append, List.takeWhile_append_dropWhile,
    List.reverse_reverse]

/-! ## Characters -/

theorem isDigit_padded (n : Nat) : ∀ c ∈ padded n, isDigit c = true := by
  unfold padded
  split
  · rename_i h
    simp [isDigit_digit h, show isDigit '0' = true from rfl]
  · exact isDigit_of_mem_digits n

/-- A character that printed numbers are made of. -/
def isFigure (c : Char) : Bool := isDigit c || c = '.' || c = 'e' || c = '+'

theorem isFigure_of_isDigit {c : Char} (h : isDigit c = true) : isFigure c = true := by
  simp [isFigure, h]

theorem isFigure_digits (n : Nat) : ∀ c ∈ digits n, isFigure c = true := fun c hc =>
  isFigure_of_isDigit (isDigit_of_mem_digits n c hc)

theorem isFigure_sixDigits (n : Nat) : ∀ c ∈ sixDigits n, isFigure c = true := by
  unfold sixDigits
  simp only
  generalize nearest _ _ = head
  split
  · exact isFigure_digits _
  · have hall := isFigure_digits head
    cases hd : digits head with
    | nil => simp
    | cons first rest =>
      rw [hd, List.forall_mem_cons] at hall
      obtain ⟨k, hk⟩ := dropTrailingZeros_zeros rest
      have htail : ∀ c ∈ dropTrailingZeros rest, isFigure c = true := fun c hc =>
        hall.2 c (hk ▸ List.mem_append_left _ hc)
      simp only [List.forall_mem_append, List.forall_mem_cons]
      refine ⟨⟨⟨hall.1, ?_⟩, rfl, rfl, fun c hc => by cases hc⟩, fun c hc => ?_⟩
      · split
        · simp
        · exact List.forall_mem_cons.mpr ⟨rfl, htail⟩
      · exact isFigure_of_isDigit (isDigit_padded _ c hc)

/-! ## Reading -/

/-- Whether a decimal is a whole number. A power of ten is moved to the side on which it is positive. -/
def Scientific.Is (s : Scientific) (n : Nat) : Prop :=
  s.negative = false ∧ s.mantissa * tenTo s.power.toNat = n * tenTo (-s.power).toNat

theorem Scientific.is_powered {n k m : Nat} :
    (⟨false, n, k⟩ : Scientific).Is m ↔ m = n * tenTo k := by
  have hzero : (-(k : Int)).toNat = 0 := by omega
  simp [Is, hzero, tenTo, eq_comm]

theorem Scientific.is_whole {n m : Nat} : (⟨false, n, 0⟩ : Scientific).Is m ↔ m = n := by
  simpa [tenTo] using is_powered (n := n) (k := 0) (m := m)

theorem unsigned?_digits (negative : Bool) (n : Nat) :
    unsigned? negative (digits n) = some ⟨negative, n, 0⟩ := by
  have hall := isDigit_of_mem_digits n
  have htake : (digits n).takeWhile isDigit = digits n := List.takeWhile_eq_self_iff.mpr hall
  have hdrop : (digits n).dropWhile isDigit = [] := List.dropWhile_eq_nil_iff.mpr hall
  have hne : digits n ≠ [] := List.ne_nil_of_length_pos (length_digits_pos n)
  simp [unsigned?, htake, hdrop, hne, ofDigits_digits]

theorem ofDigits_padded (n : Nat) : ofDigits (padded n) = n := by
  unfold padded
  split
  · rename_i h
    simp [ofDigits, toNat_digit h]
  · exact ofDigits_digits n

theorem power?_padded (n : Nat) : power? ('+' :: padded n) = some n := by
  have hne : padded n ≠ [] := by
    unfold padded
    split
    · simp
    · exact List.ne_nil_of_length_pos (length_digits_pos n)
  have hall : (padded n).all isDigit = true := List.all_eq_true.mpr (isDigit_padded n)
  simp [power?, sign, hne, hall, ofDigits_padded]

theorem unsigned?_powered (negative : Bool) {first : Char} (hf : isDigit first = true)
    {tail : List Char} (ht : ∀ c ∈ tail, isDigit c = true) (p : Nat) :
    unsigned? negative
        (first :: (if tail.isEmpty then [] else '.' :: tail) ++ ['e', '+'] ++ padded p) =
      some ⟨negative, ofDigits (first :: tail), (p : Int) - tail.length⟩ := by
  have hdot : isDigit '.' = false := rfl
  have he : isDigit 'e' = false := rfl
  cases tail with
  | nil => simp [unsigned?, hf, he, power?_padded]
  | cons c tail =>
    have htake : ((c :: tail) ++ 'e' :: '+' :: padded p).takeWhile isDigit = c :: tail := by
      rw [List.takeWhile_append_of_pos ht]
      simp [he]
    have hdrop : ((c :: tail) ++ 'e' :: '+' :: padded p).dropWhile isDigit = 'e' :: '+' :: padded p := by
      rw [List.dropWhile_append_of_pos ht]
      simp [he]
    rw [List.cons_append] at htake hdrop
    simp [unsigned?, hf, hdot, htake, hdrop, power?_padded]

theorem unsigned?_sixDigits (n : Nat) : ∃ s, unsigned? false (sixDigits n) = some s ∧
    ∀ m, s.Is m ↔ m = shown n := by
  by_cases hb : toBinary64 n < 1000000
  · refine ⟨⟨false, toBinary64 n, 0⟩, ?_, fun m => ?_⟩
    · rw [sixDigits]
      simp only [hb, if_true]
      exact unsigned?_digits false _
    · rw [Scientific.is_whole, shown, if_pos hb]
  · obtain ⟨p, -, hlen, hl, hh⟩ := scale_of_large (Nat.le_of_not_lt hb)
    obtain ⟨hlow, hhigh⟩ := head_of_scale hl hh
    rw [shown_of_scale (Nat.le_of_not_lt hb) hl hh]
    simp only [sixDigits, if_neg hb, hlen, show p + 6 - 1 - 5 = p by omega]
    generalize nearest (toBinary64 n) (tenTo p) = head at *
    -- Rounding may lead to a seventh digit, and the power of ten is one more then.
    obtain ⟨q, hq, hplaces⟩ : ∃ q, (if head < 1000000 then p + 6 - 1 else p + 6 - 1 + 1) = q ∧
        (digits head).length + p = q + 1 := by
      split
      · rename_i hlt
        have := length_digits (k := 5) hlow hlt
        exact ⟨_, rfl, by omega⟩
      · rename_i hge
        obtain rfl : head = 1000000 := by omega
        have := length_digits (n := 1000000) (k := 6) (by decide) (by decide)
        exact ⟨_, rfl, by omega⟩
    rw [hq]
    have hall := isDigit_of_mem_digits head
    have hvalue := ofDigits_digits head
    cases hd : digits head with
    | nil => exact absurd (length_digits_pos head) (by simp [hd])
    | cons first rest =>
      rw [hd] at hall hvalue hplaces
      obtain ⟨k, hk⟩ := dropTrailingZeros_zeros rest
      have hlength := congrArg List.length hk
      rw [List.length_append, List.length_replicate] at hlength
      rw [← hk, ← List.cons_append, ofDigits_zeros] at hvalue
      have htail : ∀ c ∈ dropTrailingZeros rest, isDigit c = true := fun c hc =>
        hall c (List.mem_cons_of_mem _ (hk ▸ List.mem_append_left _ hc))
      have hpower : (q : Int) - (dropTrailingZeros rest).length = (k + p : Nat) := by
        simp only [List.length_cons] at hplaces
        omega
      refine ⟨_, unsigned?_powered false (hall first List.mem_cons_self) htail q, fun m => ?_⟩
      rw [hpower, Scientific.is_powered, tenTo_add, ← Nat.mul_assoc, hvalue]

example : String.ofList (sixDigits 1234567) = "1.23457e+06" := by decide +kernel

end PubSub.Decimal
