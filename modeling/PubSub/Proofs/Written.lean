import PubSub.Details

/-!
# Written lists of texts

A list of texts that is written out is read back as it was. The reader has fuel for
every part of a text, since every part takes up a character.
-/

namespace PubSub

open Text (points)

namespace Json

def listed (texts : List String) : List Char := joined [',', ' '] (texts.map quoted)

theorem writeItems_texts (texts : List String) :
    writeItems (texts.map .text) = texts.map quoted := by
  induction texts with
  | nil => rfl
  | cons s texts ih =>
    simp only [List.map_cons, writeItems, write]
    rw [ih]

theorem write_texts (texts : List String) :
    write (.list (texts.map .text)) = '[' :: (listed texts ++ [']']) := by
  simp only [write, writeItems_texts]
  rfl

theorem quoted_eq (s : String) : quoted s = '"' :: (quoted s).tail := rfl

theorem listed_cons (s s' : String) (texts : List String) :
    listed (s :: s' :: texts) = quoted s ++ ',' :: ' ' :: listed (s' :: texts) := by
  simp [listed, joined]

theorem length_le_listed (texts : List String) : texts.length ≤ (listed texts).length := by
  induction texts with
  | nil => exact Nat.zero_le _
  | cons s texts ih =>
    have hpos : 0 < (quoted s).length := by
      rw [quoted_eq]
      simp
    cases texts with
    | nil =>
      simp only [listed, List.map_cons, List.map_nil, joined, List.length_cons, List.length_nil]
      omega
    | cons s' texts =>
      rw [listed_cons]
      simp only [List.length_append, List.length_cons] at ih ⊢
      omega

theorem head_listed (s : String) (texts : List String) :
    ∃ rest, listed (s :: texts) = '"' :: rest := by
  cases texts with
  | nil => exact ⟨_, rfl⟩
  | cons s' texts =>
    rw [listed_cons]
    exact ⟨_, rfl⟩

/-! ## Reading -/

theorem readValue_quoted (limits : Limits) (fuel level : Nat) (s : String) (rest : List Char) :
    readValue limits (fuel + 1) level (quoted s ++ rest) = .ok (.text s, rest) := by
  have hread := readQuoted_quoted s rest
  have hdoc : Document.ofPoints (points s) = .text s := by
    simp [Document.ofPoints, Text.string?_points]
  rw [quoted_eq, List.cons_append]
  unfold readValue
  simp only [hread, ofOption, Except.map, hdoc]

theorem skipBlanks_cons {c : Char} (h : isBlank c = false) (rest : List Char) :
    skipBlanks (c :: rest) = c :: rest := by
  simp [skipBlanks, h]

theorem skipBlanks_listed (s : String) (texts : List String) (rest : List Char) :
    skipBlanks (listed (s :: texts) ++ rest) = listed (s :: texts) ++ rest := by
  obtain ⟨cs, h⟩ := head_listed s texts
  rw [h, List.cons_append]
  exact skipBlanks_cons (by decide) _

/-- By induction on the texts: each step reads one of them and what stands before the next one. -/
theorem readItems_listed (limits : Limits) (level : Nat) (rest : List Char) (s : String)
    (texts : List String) {fuel : Nat} (hf : texts.length + 2 ≤ fuel) :
    readItems limits fuel level (listed (s :: texts) ++ ']' :: rest) =
      .ok ((s :: texts).map .text, rest) := by
  induction texts generalizing s fuel with
  | nil =>
    obtain ⟨fuel, rfl⟩ : ∃ k, fuel = k + 2 := ⟨fuel - 2, by simp at hf; omega⟩
    unfold readItems
    have hend := skipBlanks_cons (c := ']') (by decide) rest
    simp only [listed, joined, List.map_cons, List.map_nil, readValue_quoted]
    simp only [bind, Except.bind, hend]
    rfl
  | cons s' texts ih =>
    obtain ⟨fuel, rfl⟩ : ∃ k, fuel = k + 2 := ⟨fuel - 2, by simp at hf; omega⟩
    have hrest := ih s' (by simp at hf; omega : texts.length + 2 ≤ fuel + 1)
    have hcomma := skipBlanks_cons (c := ',') (by decide)
      (' ' :: (listed (s' :: texts) ++ ']' :: rest))
    have hblank : skipBlanks (' ' :: (listed (s' :: texts) ++ ']' :: rest)) =
        listed (s' :: texts) ++ ']' :: rest := skipBlanks_listed s' texts (']' :: rest)
    rw [listed_cons, List.append_assoc]
    unfold readItems
    simp only [List.cons_append, readValue_quoted]
    simp only [bind, Except.bind, hcomma, hblank, hrest]
    rfl

theorem readValue_texts {limits : Limits} (hl : exceeds 1 limits.nesting = false)
    (texts : List String) {fuel : Nat} (hf : texts.length + 2 ≤ fuel) :
    readValue limits fuel 0 (write (.list (texts.map .text))) =
      .ok (.list (texts.map .text), []) := by
  obtain ⟨fuel, rfl⟩ : ∃ k, fuel = k + 1 := ⟨fuel - 1, by omega⟩
  rw [write_texts]
  unfold readValue
  simp only [hl, Bool.false_eq_true, if_false, Nat.zero_add]
  cases texts with
  | nil => rfl
  | cons s texts =>
    have hitems := readItems_listed limits 1 [] s texts
      (by simp at hf; omega : texts.length + 2 ≤ fuel)
    rw [skipBlanks_listed]
    obtain ⟨cs, hhead⟩ := head_listed s texts
    rw [hhead] at hitems ⊢
    change (readItems limits fuel 1 ('"' :: cs ++ [']'])).map
      (fun p => (Document.list p.1, p.2)) = _
    rw [hitems]
    rfl

theorem read_text {limits : Limits} (hl : exceeds 1 limits.nesting = false) (texts : List String) :
    read limits (text (.list (texts.map .text))) = .ok (.list (texts.map .text)) := by
  have hlen : texts.length + 2 ≤ 2 * (write (.list (texts.map .text))).length + 2 := by
    have hle := length_le_listed texts
    rw [write_texts]
    simp only [List.length_cons, List.length_append]
    omega
  have hskip : skipBlanks (write (.list (texts.map .text))) = write (.list (texts.map .text)) := by
    rw [write_texts]
    exact skipBlanks_cons (by decide) _
  unfold read text
  simp only [String.toList_ofList, hskip, readValue_texts hl texts hlen]
  rfl

end Json

theorem Details.decode_encodeTexts (texts : List String) :
    decode (encodeTexts texts) = .ok (texts.map .text) := by
  have hread : Json.read limits (encodeTexts texts) = .ok (.list (texts.map .text)) :=
    Json.read_text rfl texts
  have hfull : (encodeTexts texts).isEmpty = false := by
    unfold encodeTexts Json.text
    rw [Json.write_texts, ← Bool.not_eq_true, String.isEmpty_iff]
    intro h
    have hnil := congrArg String.toList h
    simp at hnil
  have hkeep : (texts.map Document.text).filter (fun item => !isNull item) = texts.map .text := by
    rw [List.filter_eq_self]
    intro item hi
    obtain ⟨s, -, rfl⟩ := List.mem_map.mp hi
    rfl
  unfold decode
  simp only [hfull, Bool.false_eq_true, if_false, hread, elements, Except.map, hkeep]

end PubSub
