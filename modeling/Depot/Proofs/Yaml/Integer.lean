import Depot.Proofs.Yaml.Plain

/-!
# Integers read back

An integer is spelled in decimal digits, with a minus sign or not. The spelling may be plain, and as
a plain scalar it stands for the integer again (`ofText_integer`).
-/

namespace Depot.Yaml

variable {c : Char} {ds : List Char} {n : Nat}

/-! ### Decimal digits -/

/-- Decimal digits as they are written: at least one, and no zero in front of others. -/
structure IsDecimal (ds : List Char) : Prop where
  ne_nil : ds ≠ []
  digits : ∀ c ∈ ds, c.isDigit = true
  head : 1 < ds.length → ds.head? ≠ some '0'

lemma head?_toDigits_ne_zero (hn : 0 < n) : (Nat.toDigits 10 n).head? ≠ some '0' := by
  induction n using Nat.strongRecOn with
  | ind n ih =>
    rw [Nat.toDigits_eq_if (by decide)]
    split
    next hlt =>
      have hdigit : ∀ d < 10, 0 < d → Nat.digitChar d ≠ '0' := by decide
      simpa using hdigit n hlt hn
    next hle =>
      have hne : Nat.toDigits 10 (n / 10) ≠ [] := Nat.toDigits_ne_nil
      have hhead := ih (n / 10) (by omega) (by omega)
      obtain ⟨d, ds, hds⟩ := List.exists_cons_of_ne_nil hne
      rw [hds] at hhead ⊢
      exact hhead

lemma isDecimal_toDigits (n : Nat) : IsDecimal (Nat.toDigits 10 n) where
  ne_nil := Nat.toDigits_ne_nil
  digits _ hc := Nat.isDigit_of_mem_toDigits (by decide) (by decide) hc
  head hlength := by
    refine head?_toDigits_ne_zero (Nat.pos_of_ne_zero ?_)
    rintro rfl
    rw [Nat.toDigits_zero] at hlength
    exact absurd hlength (by decide)

lemma toNat_le_of_isDigit (hc : c.isDigit = true) : 48 ≤ c.toNat ∧ c.toNat ≤ 57 := by
  simp only [Char.isDigit, Bool.and_eq_true, decide_eq_true_eq] at hc
  exact hc

lemma ne_of_isDigit {x : Char} (hc : c.isDigit = true) (hx : x.isDigit = false) : c ≠ x := by
  rintro rfl
  rw [hc] at hx
  cases hx

/-! ### The spelling of an integer -/

/-- The digits of an integer, behind its sign. -/
lemma spellNumber_integer (i : Json.Integer) : spellNumber (.integer i) =
    (if i.value < 0 then ['-'] else []) ++ Nat.toDigits 10 i.value.natAbs := by
  obtain ⟨v, hv⟩ := i
  cases v with
  | ofNat n =>
    have hnot : ¬ ((Int.ofNat n) < 0) := by simp
    rw [if_neg hnot]
    simp [spellNumber, toString, Int.repr]
  | negSucc n =>
    simp [spellNumber, toString, Int.repr]

/-! ### The spelling is plain -/

/-- A character of an integer. -/
def IsNumeral (c : Char) : Prop :=
  c.isDigit = true ∨ c = '-'

instance : Decidable (IsNumeral c) :=
  inferInstanceAs (Decidable (_ ∨ _))

lemma isNumeral_of_mem {i : Json.Integer} (hc : c ∈ spellNumber (.integer i)) : IsNumeral c := by
  rw [spellNumber_integer] at hc
  rcases List.mem_append.1 hc with hc | hc
  · split at hc
    · exact .inr (List.mem_singleton.1 hc)
    · cases hc
  · exact .inl ((isDecimal_toDigits _).digits c hc)

lemma IsNumeral.ne {x : Char} (h : IsNumeral c) (hx : x.isDigit = false) (hx' : x ≠ '-') :
    c ≠ x := by
  rcases h with hc | rfl
  · exact ne_of_isDigit hc hx
  · exact hx'.symm

/-- A character of an integer stands in no gap. -/
lemma IsNumeral.not_blank_or_break (h : IsNumeral c) : (isBlank c || isBreak c) = false := by
  simp [isBlank, isBreak, h.ne (x := ' ') rfl (by decide), h.ne (x := '\t') rfl (by decide),
    h.ne (x := '\n') rfl (by decide), h.ne (x := '\r') rfl (by decide),
    h.ne (x := '\u0085') rfl (by decide), h.ne (x := '\u2028') rfl (by decide),
    h.ne (x := '\u2029') rfl (by decide)]

lemma hasIndicator_eq_false {cs : List Char} (hcs : ∀ c ∈ cs, c ≠ ':' ∧ c ≠ '#') (atWord : Bool) :
    Style.hasIndicator atWord cs = false := by
  induction cs generalizing atWord with
  | nil => rfl
  | cons c cs ih =>
    obtain ⟨⟨hcolon, hnumber⟩, hcs⟩ := List.forall_mem_cons.1 hcs
    simp [Style.hasIndicator, hcolon, hnumber, ih hcs]

lemma isPlain_integer (i : Json.Integer) : IsPlain (spellNumber (.integer i)) where
  ne_nil := by
    rw [spellNumber_integer]
    simp [Nat.toDigits_ne_nil]
  shown c hc := by
    have hc' : 0x20 ≤ c.toNat ∧ c.toNat ≤ 0x7E := by
      rcases isNumeral_of_mem hc with hdigit | rfl
      · have hrange := toNat_le_of_isDigit hdigit
        omega
      · decide
    simp [Style.isShown, hc']
  isLine c hc := (Bool.or_eq_false_iff.1 (isNumeral_of_mem hc).not_blank_or_break).2
  head h := by
    have hspace := isNumeral_of_mem (List.mem_of_mem_head? h)
    exact hspace.ne rfl (by decide) rfl
  last h := by
    have hspace := isNumeral_of_mem (List.mem_of_mem_getLast? h)
    exact hspace.ne rfl (by decide) rfl
  indicator := hasIndicator_eq_false (fun c hc =>
    ⟨(isNumeral_of_mem hc).ne rfl (by decide), (isNumeral_of_mem hc).ne rfl (by decide)⟩) true
  begins := by
    have hdecimal := isDecimal_toDigits i.value.natAbs
    obtain ⟨d, ds, hds⟩ := List.exists_cons_of_ne_nil hdecimal.ne_nil
    have hd := hdecimal.digits d (by simp [hds])
    have hreserved : d ∉ Style.reserved := by
      have hnone : Style.reserved.all (fun r => !r.isDigit) = true := rfl
      intro hmem
      simpa [hd] using List.all_eq_true.1 hnone d hmem
    have hends : (isBlank d || isBreak d) = false := IsNumeral.not_blank_or_break (.inl hd)
    rw [spellNumber_integer, hds]
    split
    · simp [Style.beginsIndicator, Style.endsWord, hends, ne_of_isDigit hd (x := '-') rfl,
        show '-' ∉ Style.reserved by decide]
    · simp [Style.beginsIndicator, hreserved, ne_of_isDigit hd (x := '-') rfl,
        ne_of_isDigit hd (x := '.') rfl, ne_of_isDigit hd (x := '?') rfl]

/-! ### The spelling stands for the integer -/

namespace Meaning

lemma based?_eq_none {cs : List Char} (hcs : ∀ c ∈ cs, IsNumeral c) : based? cs = none := by
  have hmark : ∀ m x : Char, x.isDigit = false → x ≠ '-' → ¬ [m, x] <+: cs :=
    fun m x hx hx' hle => (hcs x (hle.subset (by simp))).ne hx hx' rfl
  simp [based?, bases, hmark '0' 'x' rfl (by decide), hmark '0' 'o' rfl (by decide),
    hmark '0' 'b' rfl (by decide)]

lemma digit?_decimal (hc : c.isDigit = true) : digit? 10 c = some (c.toNat - 48) := by
  have hrange := toNat_le_of_isDigit hc
  have hlt : c.toNat - 48 < 10 := by omega
  simp [digit?, hc, hlt]

lemma digits?_decimal (h : IsDecimal ds) : digits? 10 ds = some (Nat.ofDigitChars 10 ds 0) := by
  have hfold : ∀ (ds : List Char) n, (∀ c ∈ ds, c.isDigit = true) →
      ds.foldl (fun n d => do return 10 * (← n) + (← digit? 10 d)) (some n) =
        some (Nat.ofDigitChars 10 ds n) := by
    intro ds
    induction ds with
    | nil => simp
    | cons d ds ih =>
      intro n hds
      obtain ⟨hd, hds⟩ := List.forall_mem_cons.1 hds
      rw [List.foldl_cons, digit?_decimal hd, Nat.ofDigitChars_cons]
      exact ih _ hds
  rw [digits?, if_neg (by simp [h.ne_nil])]
  exact hfold ds 0 h.digits

lemma isSigned_decimal (h : IsDecimal ds) : isSigned ds = false := by
  have hhead : ∀ x : Char, x.isDigit = false → ds.head? ≠ some x :=
    fun x hx hhead => ne_of_isDigit (h.digits x (List.mem_of_mem_head? hhead)) hx rfl
  simp [isSigned, hhead '-' rfl, hhead '+' rfl]

lemma not_idle (h : IsDecimal ds) :
    (decide (1 < ds.length) && ds.head? == some '0' && ds.all Char.isDigit) = false := by
  by_cases hlength : 1 < ds.length
  · simp [h.head hlength]
  · simp [hlength]

lemma hasIdleZero_decimal (h : IsDecimal ds) : hasIdleZero ds = false := by
  rw [hasIdleZero, isSigned_decimal h]
  exact not_idle h

lemma hasIdleZero_minus (h : IsDecimal ds) : hasIdleZero ('-' :: ds) = false :=
  not_idle h

lemma unsigned?_decimal (n : Nat) : unsigned? (Nat.toDigits 10 n) = some n := by
  have hdecimal := isDecimal_toDigits n
  have hhead : (Nat.toDigits 10 n).head? ≠ some '+' := by
    intro hhead
    exact ne_of_isDigit (hdecimal.digits _ (List.mem_of_mem_head? hhead)) rfl rfl
  rw [unsigned?, if_neg hhead, based?_eq_none fun c hc => .inl (hdecimal.digits c hc)]
  simp [hasIdleZero_decimal hdecimal, digits?_decimal hdecimal]

lemma digits?_minus (ds : List Char) : digits? 10 ('-' :: ds) = none := by
  have hfold : ∀ ds : List Char,
      ds.foldl (fun n d => do return 10 * (← n) + (← digit? 10 d)) none = none := by
    intro ds
    induction ds with
    | nil => rfl
    | cons d ds ih => exact ih
  exact hfold ds

lemma unsigned?_minus (n : Nat) : unsigned? ('-' :: Nat.toDigits 10 n) = none := by
  have hdecimal := isDecimal_toDigits n
  have hnumerals : ∀ c ∈ '-' :: Nat.toDigits 10 n, IsNumeral c :=
    List.forall_mem_cons.2 ⟨.inr rfl, fun c hc => .inl (hdecimal.digits c hc)⟩
  rw [unsigned?, if_neg (by simp), based?_eq_none hnumerals]
  simp [hasIdleZero_minus hdecimal, digits?_minus]

lemma negated?_minus (n : Nat) : negated? ('-' :: Nat.toDigits 10 n) = some n := by
  have hdecimal := isDecimal_toDigits n
  rw [negated?, based?_eq_none fun c hc => .inl (hdecimal.digits c hc)]
  simp [hasIdleZero_minus hdecimal, digits?_decimal hdecimal]

lemma integer?_integer (i : Json.Integer) :
    integer? (spellNumber (.integer i)) = some (.integer i.value) := by
  obtain ⟨v, hv⟩ := i
  rw [spellNumber_integer]
  dsimp only
  split
  next hneg =>
    have hle : v.natAbs ≤ wordCount / 2 := by
      unfold wordCount
      omega
    have habs : -(v.natAbs : Int) = v := by omega
    simp only [List.singleton_append, integer?, unsigned?_minus, negated?_minus, if_pos hle, habs]
  next hneg =>
    have hlt : v.natAbs < wordCount := by
      unfold wordCount
      omega
    have habs : (v.natAbs : Int) = v := by omega
    simp only [List.nil_append, integer?, unsigned?_decimal, if_pos hlt, habs]

end Meaning

theorem ofText_integer (i : Json.Integer) :
    Meaning.ofText (String.ofList (spellNumber (.integer i))) = .integer i.value := by
  have hplain := isPlain_integer i
  generalize hs : String.ofList (spellNumber (.integer i)) = s
  have hlist : s.toList = spellNumber (.integer i) := by rw [← hs, String.toList_ofList]
  have hnot : ∀ s' c, c ∈ s'.toList → ¬ IsNumeral c → s ≠ s' := by
    rintro s' c hc hnot rfl
    rw [hlist] at hc
    exact hnot (isNumeral_of_mem hc)
  have hempty : s ≠ "" := by
    rintro rfl
    exact hplain.ne_nil hlist.symm
  have hnull : Meaning.isNull s = false := by
    simp [Meaning.isNull, hnot "null" 'n' (by decide) (by decide),
      hnot "Null" 'N' (by decide) (by decide), hnot "NULL" 'N' (by decide) (by decide),
      hnot "~" '~' (by decide) (by decide)]
  have hbool : Meaning.bool? s = none := by
    simp [Meaning.bool?, hnot "true" 't' (by decide) (by decide),
      hnot "True" 'T' (by decide) (by decide), hnot "TRUE" 'T' (by decide) (by decide),
      hnot "false" 'f' (by decide) (by decide), hnot "False" 'F' (by decide) (by decide),
      hnot "FALSE" 'F' (by decide) (by decide)]
  have hinteger : Meaning.integer? s.toList = some (.integer i.value) := by
    rw [hlist]
    exact Meaning.integer?_integer i
  simp [Meaning.ofText, hempty, hnull, hbool, hinteger]

end Depot.Yaml
