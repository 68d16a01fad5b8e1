import PubSub.Proofs.Reports

/-!
# Texts for a scraper

Whoever reads a text for a scraper finds on each type line the name and the kind of a family and on
the line below it the value. Of names and values without blanks nothing is lost on the way
(`read?_exposition`): one reads the counters, then the gauges, each in the order of the names, and
then the time since the collection began. A whole number is read as itself.
-/

namespace PubSub

/-! ## Numbers -/

namespace Decimal

theorem lt_length_digits {n k : Nat} (hk : 0 < k) : k < (digits n).length ↔ tenTo k ≤ n := by
  refine ⟨fun h => ?_, fun h => tenTo_lt_tenTo.mp (h.trans_lt (lt_tenTo_length n))⟩
  have hn : 0 < n := by
    refine Nat.pos_of_ne_zero ?_
    rintro rfl
    rw [digits] at h
    simp at h
    omega
  refine le_trans (Nat.le_of_not_lt fun hlt => ?_) (tenTo_length_le hn)
  have := tenTo_lt_tenTo.mp hlt
  omega

theorem isLong_iff {n : Int} : isLong n = true ↔ tenTo digitLimit ≤ n.natAbs := by
  rw [isLong, decide_eq_true_iff]
  exact lt_length_digits (by decide)

theorem power?_signed (n : Int) : power? (signed n) = some n := by
  have hall := isDigit_of_mem_digits n.natAbs
  have hne : digits n.natAbs ≠ [] := List.ne_nil_of_length_pos (length_digits_pos _)
  have hvalue := ofDigits_digits n.natAbs
  by_cases hn : n < 0
  · have hsign : sign (signed n) = (true, digits n.natAbs) := by rw [signed, if_pos hn, sign]
    simp [power?, hsign, hne, List.all_eq_true.mpr hall, hvalue, abs_of_neg hn]
  · have hsign : sign (signed n) = (false, digits n.natAbs) := by
      obtain ⟨k, ds, hk, hds, -⟩ := digits_head n.natAbs
      rw [signed, if_neg hn, hds]
      interval_cases k <;> rfl
    simp [power?, hsign, hne, List.all_eq_true.mpr hall, hvalue, Int.not_lt.mp hn]

theorem power?_eq_none {cs : List Char} {c : Char} (hc : c ∈ cs) (hd : isDigit c = false)
    (hs : c ≠ '-' ∧ c ≠ '+') : power? cs = none := by
  have hrest : c ∈ (sign cs).2 := by
    unfold sign
    split
    · exact (List.mem_cons.mp hc).resolve_left hs.1
    · exact (List.mem_cons.mp hc).resolve_left hs.2
    · exact hc
  have hall : (sign cs).2.all isDigit = false := by
    simpa using ⟨c, hrest, hd⟩
  simp [power?, hall]

end Decimal

namespace Exposition

/-! ## Reading -/

inductive Reading where
  | whole (n : Int)
  | other (text : String)

def Reading.of (text : List Char) : Reading :=
  match Decimal.power? text with
  | some n => .whole n
  | none => .other (String.ofList text)

structure Family (α : Type) where
  kind : String
  name : String
  value : α

/-- The name and the kind on a type line. -/
def announced? (line : List Char) : Option (List Char × List Char) :=
  match line.splitOn ' ' with
  | [mark, word, name, kind] =>
    if mark = "#".toList ∧ word = "TYPE".toList then some (name, kind) else none
  | _ => none

/-- The name and the value on a sample line. -/
def sampled? (line : List Char) : Option (List Char × List Char) :=
  match line.splitOn ' ' with
  | [name, value] => some (name, value)
  | _ => none

/-- Every type line has the sample line of its family below it. -/
def families? : List (List Char) → Option (List (Family Reading))
  | [] => some []
  | [_] => none
  | type :: sample :: rest => do
    let (name, kind) ← announced? type
    let (same, value) ← sampled? sample
    if same = name then
      (families? rest).map (⟨String.ofList kind, String.ofList name, .of value⟩ :: ·)
    else none

/-- The families that one reads in a text. Empty lines say nothing. -/
def read? (text : String) : Option (List (Family Reading)) :=
  families? ((text.toList.splitOn '\n').filter (!·.isEmpty))

/-! ## Words -/

def IsWord (cs : List Char) : Prop := ' ' ∉ cs ∧ '\n' ∉ cs

instance (cs : List Char) : Decidable (IsWord cs) := inferInstanceAs (Decidable (_ ∧ _))

theorem isWord_append {cs ds : List Char} : IsWord (cs ++ ds) ↔ IsWord cs ∧ IsWord ds := by
  simp only [IsWord, List.mem_append, not_or]
  exact and_and_and_comm

theorem isWord_digits (n : Nat) : IsWord (Decimal.digits n) := by
  have hdigit := Decimal.isDigit_of_mem_digits n
  exact ⟨fun h => absurd (hdigit _ h) (by decide), fun h => absurd (hdigit _ h) (by decide)⟩

theorem isWord_minus (negative : Bool) : IsWord (Decimal.minus negative) := by
  cases negative <;> simp [Decimal.minus, IsWord]

theorem isWord_signed (n : Int) : IsWord (Decimal.signed n) := by
  unfold Decimal.signed
  split
  · exact isWord_append.mpr ⟨isWord_minus true, isWord_digits _⟩
  · exact isWord_digits _

theorem isWord_pointed (n : Nat) : IsWord (Decimal.pointed n) := by
  have hdigit : [Decimal.digit (n % 10)] = Decimal.digits (n % 10) := by
    rw [Decimal.digits, if_pos (Nat.mod_lt n (by decide))]
  rw [Decimal.pointed, ← List.singleton_append, hdigit]
  exact isWord_append.mpr ⟨isWord_digits _, isWord_append.mpr ⟨by simp [IsWord], isWord_digits _⟩⟩

theorem isWord_tenthsText (x : Float) : IsWord (Decimal.tenthsText x).toList := by
  unfold Decimal.tenthsText
  split
  · rw [String.toList_ofList]
    exact isWord_append.mpr ⟨isWord_minus _, isWord_pointed _⟩
  · rw [String.toList_ofList]
    exact isWord_append.mpr ⟨isWord_minus _, by simp [IsWord]⟩
  · simp [IsWord]

theorem reading_text (n : Int) : Reading.of (Decimal.text n).toList = .whole n := by
  rw [Decimal.text, String.toList_ofList, Reading.of, Decimal.power?_signed]

theorem reading_tenthsText (x : Float) :
    Reading.of (Decimal.tenthsText x).toList = .other (Decimal.tenthsText x) := by
  have hnone : Decimal.power? (Decimal.tenthsText x).toList = none := by
    unfold Decimal.tenthsText
    split
    · exact Decimal.power?_eq_none (c := '.') (by simp [Decimal.pointed]) (by decide) (by decide)
    · exact Decimal.power?_eq_none (c := 'i') (by simp) (by decide) (by decide)
    · exact Decimal.power?_eq_none (c := 'n') (by simp) (by decide) (by decide)
  rw [Reading.of, hnone, String.ofList_toList]

/-! ## One family -/

namespace Family

def lines (f : Family String) : List (List Char) :=
  (Metrics.family f.kind f.name f.value).map String.toList

def read (f : Family String) : Family Reading := ⟨f.kind, f.name, .of f.value.toList⟩

/-- Nothing in it breaks a word or a line. -/
structure IsClear (f : Family String) : Prop where
  kind : IsWord f.kind.toList
  name : IsWord f.name.toList
  value : IsWord f.value.toList

end Family

section
variable {f : Family String} (h : f.IsClear)

include h

theorem announced?_lines :
    announced? ("# TYPE " ++ f.name ++ " " ++ f.kind).toList = some (f.name.toList, f.kind.toList) := by
  have hjoined : ("# TYPE " ++ f.name ++ " " ++ f.kind).toList =
      [' '].intercalate ["#".toList, "TYPE".toList, f.name.toList, f.kind.toList] := by
    simp [List.intercalate]
  have hsplit : ("# TYPE " ++ f.name ++ " " ++ f.kind).toList.splitOn ' ' =
      ["#".toList, "TYPE".toList, f.name.toList, f.kind.toList] := by
    rw [hjoined]
    exact List.splitOn_intercalate ' ' (by simp [h.name.1, h.kind.1]) (by simp)
  rw [announced?, hsplit]
  simp

theorem sampled?_lines :
    sampled? (f.name ++ " " ++ f.value).toList = some (f.name.toList, f.value.toList) := by
  have hjoined : (f.name ++ " " ++ f.value).toList =
      [' '].intercalate [f.name.toList, f.value.toList] := by
    simp [List.intercalate]
  have hsplit : (f.name ++ " " ++ f.value).toList.splitOn ' ' = [f.name.toList, f.value.toList] := by
    rw [hjoined]
    exact List.splitOn_intercalate ' ' (by simp [h.name.1, h.value.1]) (by simp)
  rw [sampled?, hsplit]

theorem families?_cons (rest : List (List Char)) :
    families? (f.lines ++ rest) = (families? rest).map (f.read :: ·) := by
  simp only [Family.lines, Metrics.family, List.map_cons, List.map_nil, List.cons_append,
    List.nil_append, families?, announced?_lines h, sampled?_lines h, Option.bind_eq_bind,
    Option.bind_some, if_true, String.ofList_toList, Family.read]

theorem lines_unbroken : ∀ l ∈ f.lines, '\n' ∉ l ∧ l ≠ [] := by
  simp [Family.lines, Metrics.family, h.kind.2, h.name.2, h.value.2]

end

/-! ## Families -/

theorem families?_lines {families : List (Family String)} (h : ∀ f ∈ families, f.IsClear) :
    families? (families.flatMap Family.lines) = some (families.map Family.read) := by
  induction families with
  | nil => rfl
  | cons f families ih =>
    obtain ⟨hf, hrest⟩ := List.forall_mem_cons.mp h
    rw [List.flatMap_cons, families?_cons hf, ih hrest]
    rfl

end Exposition

namespace Metrics

open Exposition

def families (m : Metrics) (now : Float) : List (Family String) :=
  (m.counters.mergeSort byName).map (fun (name, n) => ⟨"counter", name, Decimal.text n⟩) ++
  (m.gauges.mergeSort byName).map (fun (name, value) => ⟨"gauge", name, value.text⟩) ++
  [⟨"gauge", fullName "uptime_seconds", Decimal.tenthsText (now - m.started)⟩]

theorem toList_exposition (m : Metrics) (now : Float) :
    (m.exposition now).toList = ((m.families now).flatMap Family.lines).flatMap (· ++ ['\n']) := by
  have hlines : m.lines now = (m.families now).flatMap fun f => family f.kind f.name f.value := by
    simp [lines, families, List.flatMap_map]
  rw [exposition, hlines, String.toList_join]
  simp [Family.lines, List.flatMap_map, List.flatMap_assoc, List.map_flatMap]

/-- What is written for a scraper is read as it was written. -/
theorem read?_exposition {m : Metrics} {now : Float} (h : ∀ f ∈ m.families now, f.IsClear) :
    read? (m.exposition now) = some ((m.families now).map Family.read) := by
  have hlines : ∀ l ∈ (m.families now).flatMap Family.lines, '\n' ∉ l ∧ l ≠ [] := by
    intro l hl
    obtain ⟨f, hf, hl⟩ := List.mem_flatMap.mp hl
    exact lines_unbroken (h f hf) l hl
  have hfull : ((m.families now).flatMap Family.lines).filter (!·.isEmpty) =
      (m.families now).flatMap Family.lines :=
    List.filter_eq_self.mpr fun l hl => by simpa using (hlines l hl).2
  have hsplit := Report.splitOn_lines (fun l hl => (hlines l hl).1) []
  rw [List.append_nil, ← toList_exposition, List.splitOn_nil] at hsplit
  rw [read?, hsplit, List.filter_append, hfull]
  -- After the last end of a line there is one more line, an empty one.
  exact (congrArg families? (List.append_nil _)).trans (families?_lines h)

example : read? "# TYPE usub_a counter\nusub_a -3\n" = some [⟨"counter", "usub_a", .whole (-3)⟩] := rfl

end Metrics

end PubSub
