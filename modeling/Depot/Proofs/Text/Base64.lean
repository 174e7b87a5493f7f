import Depot.Text.Base64
import Mathlib.Tactic.Lemma
import Mathlib.Tactic.SplitIfs

/-!
# Base64 and back

`decode` reads a text exactly if it is what `encode` writes, and it reads the octets that were
written (`decode_eq_some_iff`). What is written is made of the alphabet, with at most two equals
signs behind it that fill up the last group of four (`isPadded_encode`).
-/

namespace Depot.Text.Base64

variable {c : Char} {i j k l n : Nat} {cs : List Char} {bs : List UInt8}

/-! ### One character -/

lemma value?_digit (h : n < 64) : value? (digit n) = some n := by
  revert n
  decide

lemma value?_eq_some_iff : value? c = some n ↔ n < 64 ∧ c = digit n := by
  constructor
  · intro h
    obtain ⟨hn, hc, -⟩ := List.findIdx?_eq_some_iff_getElem.1 h
    refine ⟨hn, ?_⟩
    rw [digit, List.getD_eq_getElem?_getD, List.getElem?_eq_getElem hn, Option.getD_some]
    exact (beq_iff_eq.1 hc).symm
  · rintro ⟨h, rfl⟩
    exact value?_digit h

lemma digit_mem (h : n < 64) : digit n ∈ alphabet := by
  rw [digit, List.getD_eq_getElem?_getD, List.getElem?_eq_getElem h, Option.getD_some]
  exact List.getElem_mem h

lemma digit_ne_equals (h : n < 64) : digit n ≠ '=' := by
  intro heq
  have hnone : value? '=' = none := by decide
  rw [← heq, value?_digit h] at hnone
  cases hnone

/-! ### Reading what was written -/

/-- A group of four characters, none of which fills up. -/
lemma decode_digits (hi : i < 64) (hj : j < 64) (hk : k < 64) (hl : l < 64) (cs : List Char) :
    let n := ((i * 64 + j) * 64 + k) * 64 + l
    decode (digit i :: digit j :: digit k :: digit l :: cs) = (decode cs).map fun bs =>
      UInt8.ofNat (n / 65536) :: UInt8.ofNat (n / 256 % 256) :: UInt8.ofNat (n % 256) :: bs := by
  have hne := digit_ne_equals hl
  rw [decode]
  · simp only [value?_digit hi, value?_digit hj, value?_digit hk, value?_digit hl]
    cases decode cs <;> rfl
  · intro _ h
    exact absurd h hne
  · intro h
    exact absurd h hne

theorem decode_encode (bs : List UInt8) : decode (encode bs) = some bs := by
  fun_induction encode bs with
  | case1 => rfl
  | case2 a n =>
    have ha := a.toNat_lt
    have hn : n / 64 * 64 + n % 64 = a.toNat * 16 := by omega
    have hzero : a.toNat * 16 % 16 = 0 := by omega
    have hoctet : a.toNat * 16 / 16 = a.toNat := by omega
    simp only [decode, value?_digit (show n / 64 < 64 by omega),
      value?_digit (show n % 64 < 64 by omega), Option.bind_eq_bind, Option.bind_some, hn, hzero,
      if_true, hoctet, UInt8.ofNat_toNat]
  | case3 a b n =>
    have ha := a.toNat_lt
    have hb := b.toNat_lt
    have hn : (n / 4096 * 64 + n / 64 % 64) * 64 + n % 64 = (a.toNat * 256 + b.toNat) * 4 := by
      omega
    have hzero : (a.toNat * 256 + b.toNat) * 4 % 4 = 0 := by omega
    have hfirst : (a.toNat * 256 + b.toNat) * 4 / 1024 = a.toNat := by omega
    have hsecond : (a.toNat * 256 + b.toNat) * 4 / 4 % 256 = b.toNat := by omega
    have hne := digit_ne_equals (show n % 64 < 64 by omega)
    rw [decode]
    · simp only [value?_digit (show n / 4096 < 64 by omega),
        value?_digit (show n / 64 % 64 < 64 by omega), value?_digit (show n % 64 < 64 by omega),
        Option.bind_eq_bind, Option.bind_some, hn, hzero, if_true, hfirst, hsecond,
        UInt8.ofNat_toNat]
    · intro h
      exact absurd h hne
  | case4 a b c rest n ih =>
    have ha := a.toNat_lt
    have hb := b.toNat_lt
    have hc := c.toNat_lt
    have hn : ((n / 262144 * 64 + n / 4096 % 64) * 64 + n / 64 % 64) * 64 + n % 64 =
        (a.toNat * 256 + b.toNat) * 256 + c.toNat := by omega
    have hfirst : ((a.toNat * 256 + b.toNat) * 256 + c.toNat) / 65536 = a.toNat := by omega
    have hsecond : ((a.toNat * 256 + b.toNat) * 256 + c.toNat) / 256 % 256 = b.toNat := by omega
    have hthird : ((a.toNat * 256 + b.toNat) * 256 + c.toNat) % 256 = c.toNat := by omega
    rw [decode_digits (by omega) (by omega) (by omega) (by omega), ih, Option.map_some]
    simp only [hn, hfirst, hsecond, hthird, UInt8.ofNat_toNat]

/-! ### Writing what was read -/

lemma toNat_octet (h : n < 256) : (UInt8.ofNat n).toNat = n :=
  UInt8.toNat_ofNat_of_lt' h

/-- A group of three octets, given by their bits. -/
lemma encode_octets (h : n < 16777216) (bs : List UInt8) :
    encode (UInt8.ofNat (n / 65536) :: UInt8.ofNat (n / 256 % 256) :: UInt8.ofNat (n % 256) :: bs) =
      digit (n / 262144) :: digit (n / 4096 % 64) :: digit (n / 64 % 64) :: digit (n % 64)
        :: encode bs := by
  have hn : (n / 65536 * 256 + n / 256 % 256) * 256 + n % 256 = n := by omega
  simp only [encode, toNat_octet (show n / 65536 < 256 by omega),
    toNat_octet (show n / 256 % 256 < 256 by omega), toNat_octet (show n % 256 < 256 by omega), hn]

lemma encode_of_decode (h : decode cs = some bs) : encode bs = cs := by
  fun_induction decode cs generalizing bs with
  | case1 =>
    cases h
    rfl
  | case2 a b =>
    simp only [Option.bind_eq_bind, Option.bind_eq_some_iff, value?_eq_some_iff] at h
    obtain ⟨i, ⟨hi, rfl⟩, j, ⟨hj, rfl⟩, h⟩ := h
    split_ifs at h with hzero
    cases h
    have hn : (i * 64 + j) / 16 * 16 = i * 64 + j := by omega
    have hfirst : (i * 64 + j) / 64 = i := by omega
    have hsecond : (i * 64 + j) % 64 = j := by omega
    simp only [encode, toNat_octet (show (i * 64 + j) / 16 < 256 by omega), hn, hfirst, hsecond]
  | case3 a b c =>
    simp only [Option.bind_eq_bind, Option.bind_eq_some_iff, value?_eq_some_iff] at h
    obtain ⟨i, ⟨hi, rfl⟩, j, ⟨hj, rfl⟩, k, ⟨hk, rfl⟩, h⟩ := h
    split_ifs at h with hzero
    cases h
    have hn : (((i * 64 + j) * 64 + k) / 1024 * 256 + ((i * 64 + j) * 64 + k) / 4 % 256) * 4 =
        (i * 64 + j) * 64 + k := by omega
    have hfirst : ((i * 64 + j) * 64 + k) / 4096 = i := by omega
    have hsecond : ((i * 64 + j) * 64 + k) / 64 % 64 = j := by omega
    have hthird : ((i * 64 + j) * 64 + k) % 64 = k := by omega
    simp only [encode, toNat_octet (show ((i * 64 + j) * 64 + k) / 1024 < 256 by omega),
      toNat_octet (show ((i * 64 + j) * 64 + k) / 4 % 256 < 256 by omega), hn, hfirst, hsecond,
      hthird]
  | case4 a b c d rest _ _ ih =>
    simp only [Option.bind_eq_bind, Option.bind_eq_some_iff, value?_eq_some_iff] at h
    obtain ⟨i, ⟨hi, rfl⟩, j, ⟨hj, rfl⟩, k, ⟨hk, rfl⟩, l, ⟨hl, rfl⟩, more, hmore, h⟩ := h
    cases h
    have hfirst : (((i * 64 + j) * 64 + k) * 64 + l) / 262144 = i := by omega
    have hsecond : (((i * 64 + j) * 64 + k) * 64 + l) / 4096 % 64 = j := by omega
    have hthird : (((i * 64 + j) * 64 + k) * 64 + l) / 64 % 64 = k := by omega
    have hlast : (((i * 64 + j) * 64 + k) * 64 + l) % 64 = l := by omega
    rw [encode_octets (by omega), ih hmore, hfirst, hsecond, hthird, hlast]
  | case5 => cases h

/-- The text of some octets is the only one that is read as them. -/
theorem decode_eq_some_iff : decode cs = some bs ↔ cs = encode bs := by
  constructor
  · intro h
    exact (encode_of_decode h).symm
  · rintro rfl
    exact decode_encode bs

/-! ### The shape of what is written -/

/-- Characters of the alphabet with at most two equals signs behind them, in groups of four. -/
def IsPadded (cs : List Char) : Prop :=
  ∃ (digits : List Char) (k : Nat), cs = digits ++ List.replicate k '=' ∧
    (∀ c ∈ digits, c ∈ alphabet) ∧ k ≤ 2 ∧ 4 ∣ cs.length

theorem isPadded_encode (bs : List UInt8) : IsPadded (encode bs) := by
  fun_induction encode bs with
  | case1 => exact ⟨[], 0, rfl, by simp, by omega, by simp⟩
  | case2 a n =>
    have ha := a.toNat_lt
    have hfirst := digit_mem (show n / 64 < 64 by omega)
    have hsecond := digit_mem (show n % 64 < 64 by omega)
    exact ⟨[_, _], 2, rfl, by simp [hfirst, hsecond], by omega, ⟨1, rfl⟩⟩
  | case3 a b n =>
    have ha := a.toNat_lt
    have hb := b.toNat_lt
    have hfirst := digit_mem (show n / 4096 < 64 by omega)
    have hsecond := digit_mem (show n / 64 % 64 < 64 by omega)
    have hthird := digit_mem (show n % 64 < 64 by omega)
    exact ⟨[_, _, _], 1, rfl, by simp [hfirst, hsecond, hthird], by omega, ⟨1, rfl⟩⟩
  | case4 a b c rest n ih =>
    have ha := a.toNat_lt
    have hb := b.toNat_lt
    have hc := c.toNat_lt
    have hfirst := digit_mem (show n / 262144 < 64 by omega)
    have hsecond := digit_mem (show n / 4096 % 64 < 64 by omega)
    have hthird := digit_mem (show n / 64 % 64 < 64 by omega)
    have hlast := digit_mem (show n % 64 < 64 by omega)
    obtain ⟨digits, k, heq, hdigits, hk, hlength⟩ := ih
    refine ⟨_ :: _ :: _ :: _ :: digits, k, by rw [heq]; rfl, ?_, hk, ?_⟩
    · simp only [List.forall_mem_cons]
      exact ⟨hfirst, hsecond, hthird, hlast, hdigits⟩
    · simp only [List.length_cons]
      omega

end Depot.Text.Base64
