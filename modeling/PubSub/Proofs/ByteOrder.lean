import PubSub.Text.Bytes

/-!
# The order of bytes

Texts stand in the order of their characters, and files compare the bytes that
texts are stored as. The two orders are one: the bytes of a larger character are
larger, wherever the two first differ.
-/

namespace PubSub.Text

/-! ## One character -/

theorem utf8EncodeChar_ne_nil (c : Char) : String.utf8EncodeChar c ≠ [] := by
  unfold String.utf8EncodeChar
  simp only
  split
  · simp
  · split
    · simp
    · split <;> simp

theorem encode_lt {c d : Char} (h : c < d) (u v : List UInt8) :
    String.utf8EncodeChar c ++ u < String.utf8EncodeChar d ++ v := by
  have hn : c.val.toNat < d.val.toNat := h
  have hd : d.val.toNat < 0x110000 := by
    have := d.valid
    simp only [UInt32.isValidChar, Nat.isValidChar] at this
    omega
  unfold String.utf8EncodeChar
  simp only
  generalize c.val.toNat = n at hn
  generalize d.val.toNat = m at hn hd
  -- One case for each pair of lengths; a longer encoding has the larger first byte.
  repeat' split
  all_goals
    simp only [List.cons_append, List.nil_append, List.cons_lt_cons_iff, UInt8.lt_iff_toNat_lt,
      ← UInt8.toNat_inj, UInt8.toNat_ofNat']
    simp (disch := omega) only [Nat.mod_eq_of_lt (b := 256), Nat.mod_eq_of_lt (b := 8)]
    omega

/-! ## Texts -/

theorem toBytes_eq (s : String) : toBytes s = s.toList.flatMap String.utf8EncodeChar := by
  rw [toBytes, ← String.utf8Encode_toList, List.utf8Encode, List.toList_data_toByteArray]

theorem lt_or_gt_of_ne {c d : Char} (h : c ≠ d) : c < d ∨ d < c := by
  have hne : c.val.toNat ≠ d.val.toNat := fun he => h (Char.ext (UInt32.toNat_inj.mp he))
  exact (Nat.lt_or_gt_of_ne hne).imp id id

theorem append_lt_append {u v : List UInt8} : ∀ bytes : List UInt8, bytes ++ u < bytes ++ v ↔ u < v
  | [] => Iff.rfl
  | b :: bytes => by
    have hb : ¬b < b := by simp
    simp only [List.cons_append, List.cons_lt_cons_iff, hb, false_or, true_and]
    exact append_lt_append bytes

theorem flatMap_lt_iff (cs ds : List Char) :
    cs.flatMap String.utf8EncodeChar < ds.flatMap String.utf8EncodeChar ↔ cs < ds := by
  induction cs generalizing ds with
  | nil =>
    cases ds with
    | nil => simp
    | cons d ds =>
      obtain ⟨b, bytes, hd⟩ := List.exists_cons_of_ne_nil (utf8EncodeChar_ne_nil d)
      simp [hd]
  | cons c cs ih =>
    cases ds with
    | nil => simp
    | cons d ds =>
      rw [List.flatMap_cons, List.flatMap_cons, List.cons_lt_cons_iff]
      by_cases h : c = d
      · subst h
        have hc : ¬c < c := Nat.lt_irrefl _
        rw [append_lt_append, ih ds]
        simp only [hc, false_or, true_and]
      · rcases lt_or_gt_of_ne h with hlt | hgt
        · exact iff_of_true (encode_lt hlt _ _) (.inl hlt)
        · have hn : ¬c < d := Nat.lt_asymm hgt
          refine iff_of_false (fun hlt => ?_) (by simp [h, hn])
          exact List.lt_asymm hlt (encode_lt hgt _ _)

theorem toBytes_lt_iff (s t : String) : toBytes s < toBytes t ↔ s < t := by
  rw [toBytes_eq, toBytes_eq, flatMap_lt_iff]
  exact Iff.rfl

end PubSub.Text
