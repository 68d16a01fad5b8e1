import PubSub.Text.Point

/-!
# Texts as bytes

A text is stored as the bytes of its characters. `ofBytes?_eq_some_iff`: bytes
stand for a text exactly if they are the bytes of it. In the names of files, some
halves of pairs stand for bytes that are part of no character.
-/

namespace PubSub.Text

def toBytes (s : String) : List UInt8 := s.toByteArray.data.toList

def ofBytes? (bytes : List UInt8) : Option String := String.fromUTF8? ⟨bytes.toArray⟩

theorem ofBytes?_toBytes (s : String) : ofBytes? (toBytes s) = some s := by
  have same : (⟨(toBytes s).toArray⟩ : ByteArray) = s.toByteArray := by
    rw [toBytes, Array.toArray_toList]
  have valid : (⟨(toBytes s).toArray⟩ : ByteArray).IsValidUTF8 := same ▸ s.isValidUTF8
  rw [ofBytes?, String.fromUTF8?, dif_pos valid, String.fromUTF8]
  exact congrArg some (String.toByteArray_inj.1 same)

theorem toBytes_of_ofBytes? {bytes : List UInt8} {s : String} (h : ofBytes? bytes = some s) :
    toBytes s = bytes := by
  rw [ofBytes?, String.fromUTF8?] at h
  split at h
  · cases h
    rfl
  · cases h

theorem ofBytes?_eq_some_iff {bytes : List UInt8} {s : String} :
    ofBytes? bytes = some s ↔ toBytes s = bytes :=
  ⟨toBytes_of_ofBytes?, fun h => h ▸ ofBytes?_toBytes s⟩

/-! ## Names of files -/

/-- The bytes that a point adds to a name. The halves that lie this far behind the first one stand
for the bytes from 128 on. -/
def nameBytes? : Point → Option (List UInt8)
  | .char c => some (String.utf8EncodeChar c)
  | .half n => if 0x480 ≤ n.val ∧ n.val < 0x500 then some [(n.val - 0x400).toUInt8] else none

def name? (ps : List Point) : Option (List UInt8) := (ps.mapM nameBytes?).map List.flatten

end PubSub.Text
