import Mathlib.Tactic.Lemma

/-!
# Texts and their octets

A text is told by its octets, those of UTF-8, and it is read back from them.
-/

namespace Depot.Text

variable {s t : String}

/-- The octets of a text. -/
def octets (s : String) : List UInt8 :=
  s.toUTF8.data.toList

/-- The text with some octets, if there is one. -/
def ofOctets? (bs : List UInt8) : Option String :=
  String.fromUTF8? ⟨bs.toArray⟩

@[simp] lemma octets_append (s t : String) : octets (s ++ t) = octets s ++ octets t := by
  simp [octets, String.toByteArray_append]

/-- The octets of a text are read as the text. -/
lemma fromUTF8?_toUTF8 (s : String) : String.fromUTF8? s.toUTF8 = some s := by
  have hvalid : s.toUTF8.IsValidUTF8 := s.isValidUTF8
  rw [String.fromUTF8?, dif_pos hvalid]
  rfl

lemma ofOctets?_octets (s : String) : ofOctets? (octets s) = some s :=
  fromUTF8?_toUTF8 s

/-- A text is told by its octets. -/
lemma eq_of_octets_eq (h : s.toUTF8.data.toList = t.toUTF8.data.toList) : s = t :=
  String.toByteArray_inj.1 (ByteArray.ext (Array.toList_inj.1 h))

end Depot.Text
