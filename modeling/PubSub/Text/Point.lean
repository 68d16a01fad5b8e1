/-!
# Points

A text as it can be written down with escapes: its points are characters, but
also halves of pairs that stand alone, which are none. `string?_points`: a text
without halves is a string, and no other is.
-/

namespace PubSub.Text

inductive Point where
  | char (c : Char)
  /-- Half of a pair, by its distance from the first of them. -/
  | half (n : Fin 0x800)
  deriving DecidableEq

namespace Point

def firstHalf : Nat := 0xd800

def code : Point → Nat
  | .char c => c.toNat
  | .half n => firstHalf + n

/-- The point of a number that is no larger than that of the last character. -/
def ofCode (n : Nat) : Point :=
  if n.isValidChar then .char (Char.ofNat n) else .half (Fin.ofNat 0x800 (n - firstHalf))

def char? : Point → Option Char
  | .char c => some c
  | .half _ => none

theorem ofCode_code (p : Point) : ofCode p.code = p := by
  cases p with
  | char c =>
    rw [code, ofCode, if_pos (show c.toNat.isValidChar from c.valid), Char.ofNat_toNat]
  | half n =>
    have notValid : ¬(firstHalf + n.val).isValidChar := by
      have bound := n.isLt
      simp only [Nat.isValidChar, firstHalf]
      omega
    rw [code, ofCode, if_neg notValid, Nat.add_sub_cancel_left]
    exact congrArg half (Fin.ofNat_val_eq_self n)

end Point

/-! ## Strings -/

def points (s : String) : List Point := s.toList.map .char

def string? (ps : List Point) : Option String := (ps.mapM Point.char?).map String.ofList

theorem mapM_char?_map (cs : List Char) : (cs.map Point.char).mapM Point.char? = some cs := by
  induction cs with
  | nil => rfl
  | cons c cs ih => simp [List.mapM_cons, ih, Point.char?]

theorem string?_points (s : String) : string? (points s) = some s := by
  rw [string?, points, mapM_char?_map, Option.map_some, String.ofList_toList]

theorem points_of_string? {ps : List Point} {s : String} (h : string? ps = some s) :
    points s = ps := by
  obtain ⟨cs, found, rfl⟩ := Option.map_eq_some_iff.1 h
  rw [points, String.toList_ofList]
  clear h
  induction ps generalizing cs with
  | nil =>
    cases found
    rfl
  | cons p ps ih =>
    cases p with
    | half n => simp [List.mapM_cons, Point.char?] at found
    | char c =>
      simp only [List.mapM_cons, Point.char?, Option.pure_def, Option.bind_eq_bind,
        Option.bind_some] at found
      obtain ⟨rest, hrest, hcs⟩ := Option.bind_eq_some_iff.1 found
      cases hcs
      rw [List.map_cons, ih rest hrest]

theorem string?_eq_some_iff {ps : List Point} {s : String} :
    string? ps = some s ↔ points s = ps :=
  ⟨points_of_string?, fun h => h ▸ string?_points s⟩

end PubSub.Text
