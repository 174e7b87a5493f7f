import Depot.Text.Percent
import Mathlib.Tactic.Lemma
import Mathlib.Tactic.SplitIfs

/-!
# Percent encoding and back

What is encoded octet by octet is decoded to the same octets (`decode_encode`). No slash is left in
it, so that encoded texts can be told apart between slashes.
-/

namespace Depot.Text.Percent

variable {b : UInt8} {c : Char}

/-! ### One octet -/

/-- An octet that stands for itself is the code of a character other than the two that matter to the
readers of a URL. -/
lemma kept (h : isKept b = true) : UInt8.ofNat (Char.ofNat b.toNat).toNat = b ∧
    Char.ofNat b.toNat ≠ '%' ∧ Char.ofNat b.toNat ≠ '/' := by
  simp only [isKept, Bool.and_eq_true, decide_eq_true_eq, Bool.not_eq_true', List.any_eq_false] at h
  obtain ⟨⟨-, hlt⟩, hnot⟩ := h
  have hvalid : b.toNat.isValidChar := .inl (by omega)
  have hcode : (Char.ofNat b.toNat).toNat = b.toNat := by
    rw [Char.ofNat, dif_pos hvalid]
    rfl
  have hne : ∀ d ∈ "\"#%/<>?\\`\x7b\x7d".toList, Char.ofNat b.toNat ≠ d := by
    intro d hd heq
    apply hnot d hd
    rw [beq_iff_eq, ← heq, hcode]
  refine ⟨?_, hne '%' (by decide), hne '/' (by decide)⟩
  rw [hcode, UInt8.ofNat_toNat]

lemma hexValue?_upperHex {n : Nat} (h : n < 16) : hexValue? (upperHex n) = some n := by
  revert n
  decide

lemma upperHex_ne_slash {n : Nat} (h : n < 16) : upperHex n ≠ '/' := by
  revert n
  decide

lemma decode_cons_of_ne (h : c ≠ '%') (cs : List Char) :
    decode (c :: cs) = UInt8.ofNat c.toNat :: decode cs := by
  rw [decode]
  rintro a b rest rfl
  exact absurd rfl h

lemma decode_encodeOctet (b : UInt8) (cs : List Char) :
    decode (encodeOctet b ++ cs) = b :: decode cs := by
  rw [encodeOctet]
  split_ifs with hkept
  · obtain ⟨hcode, hpercent, -⟩ := kept hkept
    rw [List.singleton_append, decode_cons_of_ne hpercent, hcode]
  · have hhigh : b.toNat / 16 < 16 := by
      have hlt := b.toNat_lt
      omega
    have hlow : b.toNat % 16 < 16 := Nat.mod_lt _ (by decide)
    simp only [List.cons_append, List.nil_append, decode, hexValue?_upperHex hhigh,
      hexValue?_upperHex hlow, Nat.div_add_mod, UInt8.ofNat_toNat]

lemma slash_notMem_encodeOctet (b : UInt8) : '/' ∉ encodeOctet b := by
  rw [encodeOctet]
  split_ifs with hkept
  · obtain ⟨-, -, hslash⟩ := kept hkept
    simpa using Ne.symm hslash
  · have hhigh : b.toNat / 16 < 16 := by
      have hlt := b.toNat_lt
      omega
    have hlow : b.toNat % 16 < 16 := Nat.mod_lt _ (by decide)
    simp [Ne.symm (upperHex_ne_slash hhigh), Ne.symm (upperHex_ne_slash hlow)]

/-! ### A text -/

lemma decode_flatMap_encodeOctet (bs : List UInt8) : decode (bs.flatMap encodeOctet) = bs := by
  induction bs with
  | nil => rfl
  | cons b bs ih => rw [List.flatMap_cons, decode_encodeOctet, ih]

theorem decode_encode (s : String) : decode (encode s) = s.toUTF8.data.toList :=
  decode_flatMap_encodeOctet _

theorem slash_notMem_encode (s : String) : '/' ∉ encode s := by
  rw [encode, List.mem_flatMap]
  rintro ⟨b, -, hb⟩
  exact slash_notMem_encodeOctet b hb

end Depot.Text.Percent
