import Depot.Proofs.Yaml.Block

/-!
# The spelling of a string

What the spelling of a string looks like, by its style (`spelled`): the text that it begins with, and
the length of a spelling of one line.
-/

namespace Depot.Yaml

variable {cs : List Char}

/-! ### The first character of a plain text -/

lemma endsWord_append_eq_false (h : Style.endsWord cs = false) (rest : List Char) :
    Style.endsWord (cs ++ rest) = false := by
  cases cs with
  | nil => cases h
  | cons c cs => exact h

/-- The first character of a plain text is no indicator, unless a word goes on behind it. -/
lemma IsPlain.first {c : Char} (h : IsPlain (c :: cs)) :
    Style.reserved.contains c = false ∧ (isBlank c || isBreak c) = false ∧
      (c = '-' ∨ c = '?' ∨ c = ':' → Style.endsWord cs = false) := by
  have hbegins := h.begins
  have hindicator := h.indicator
  simp only [Style.beginsIndicator, Style.hasIndicator, Bool.or_eq_false_iff] at hbegins hindicator
  obtain ⟨-, hreserved, hdash⟩ := hbegins
  obtain ⟨⟨hcolon, -⟩, -⟩ := hindicator
  refine ⟨hreserved, h.toIsWords.beginsWord [] c rfl, ?_⟩
  rintro (rfl | rfl | rfl)
  · simpa using hdash
  · simpa using hdash
  · simpa using hcolon

lemma ne_of_reserved {c : Char} (h : Style.reserved.contains c = false) :
    (c ≠ '%' ∧ c ≠ '[' ∧ c ≠ '\x7b' ∧ c ≠ ']' ∧ c ≠ '\x7d' ∧ c ≠ ',') ∧
      (c ≠ '*' ∧ c ≠ '&' ∧ c ≠ '!' ∧ c ≠ '|' ∧ c ≠ '>' ∧ c ≠ '\'' ∧ c ≠ '"') ∧
      c ≠ '#' ∧ c ≠ '@' ∧ c ≠ '`' := by
  refine ⟨⟨?_, ?_, ?_, ?_, ?_, ?_⟩, ⟨?_, ?_, ?_, ?_, ?_, ?_, ?_⟩, ?_, ?_, ?_⟩
  all_goals
    rintro rfl
    exact absurd h (by decide)

/-! ### The spelling of a string -/

/-- A string with its style and its spelling, by the style. -/
inductive Spelled (n : Nat) (v : String) : Style → List Char → Prop
  | plain (hplain : IsPlain v.toList) (hstring : Style.readsAsString v = true) :
      Spelled n v .plain v.toList
  | single (hsingle : Style.allowsSingle v.toList = true) (hlf : '\n' ∉ v.toList) :
      Spelled n v .single
        ('\'' :: indentLines n false (v.toList.flatMap singleQuotedChar ++ ['\'']))
  | double : Spelled n v .double ('"' :: v.toList.flatMap doubleQuotedChar ++ ['"'])
  | literal (hliteral : Style.allowsLiteral v.toList = true) (hlf : '\n' ∈ v.toList) :
      Spelled n v .literal
        ('|' :: literalHints v.toList ++ '\n' :: indentLines n true v.toList)

lemma ne_nil_of_readsAsString {v : String} (h : Style.readsAsString v = true) :
    v.toList ≠ [] := by
  intro hnil
  obtain rfl : v = "" := by simpa using hnil
  exact absurd h (by decide)

lemma spelled (n : Nat) (v : String) : Spelled n v (Style.ofString v) (spell n v) := by
  unfold spell Style.ofString
  dsimp only
  split
  next hlf =>
    split
    next hliteral => exact .literal hliteral (by simpa using hlf)
    next => exact .double
  next hlf =>
    split
    next hplain =>
      rw [Bool.and_eq_true] at hplain
      exact .plain (isPlain_of_allowsPlain (ne_nil_of_readsAsString hplain.1) hplain.2) hplain.1
    next =>
      split
      next hsingle => exact .single hsingle (by simpa using hlf)
      next => exact .double

lemma spell_ne_nil (n : Nat) (v : String) : spell n v ≠ [] := by
  have hspelled := spelled n v
  generalize Style.ofString v = style at hspelled
  generalize spell n v = sp at hspelled ⊢
  cases hspelled with
  | plain hplain => exact hplain.ne_nil
  | single | double | literal => simp

/-- The word of a string. -/
def scalarWord (s : String) : Word :=
  .scalar s.toList (Style.ofString s == .plain)

/-! ### What a spelling begins with -/

/-- A text that begins neither with a gap nor with a comment. -/
abbrev BeginsToken : List Char → Prop :=
  NotAhead fun c => isBlank c || isBreak c || c == '#' || c == '\ufeff'

lemma NotAhead.beginsWord {cs : List Char} (h : BeginsToken cs) : BeginsWord cs := by
  intro c hc
  have hc' := h c hc
  simp only [Bool.or_eq_false_iff] at hc' ⊢
  exact hc'.1.1

lemma IsPlain.beginsToken (h : IsPlain cs) (rest : List Char) : BeginsToken (cs ++ rest) := by
  obtain ⟨c, cs, rfl⟩ := List.exists_cons_of_ne_nil h.ne_nil
  obtain ⟨hreserved, hword, -⟩ := h.first
  have hnumber : c ≠ '#' := (ne_of_reserved hreserved).2.2.1
  have hmark : c ≠ '\ufeff' := by
    rintro rfl
    exact absurd (h.shown _ List.mem_cons_self) (by decide)
  rintro x ⟨⟩
  simp [hword, hnumber, hmark]

lemma beginsToken_spell (n : Nat) (v : String) (rest : List Char) :
    BeginsToken (spell n v ++ rest) := by
  have hspelled := spelled n v
  generalize Style.ofString v = style at hspelled
  generalize spell n v = sp at hspelled ⊢
  cases hspelled with
  | plain hplain => exact hplain.beginsToken rest
  | single | double | literal =>
    rintro c ⟨⟩
    decide

/-! ### The last line of a spelling -/

lemma exists_endLine_eq (cs : List Char) : ∃ r, endLine cs = cs ++ r := by
  unfold endLine
  split
  · exact ⟨[], (List.append_nil _).symm⟩
  · exact ⟨['\n'], rfl⟩

lemma beginsToken_endLine_spell (n : Nat) (v : String) (rest : List Char) :
    BeginsToken (endLine (spell n v) ++ rest) := by
  obtain ⟨r, hr⟩ := exists_endLine_eq (spell n v)
  rw [hr, List.append_assoc]
  exact beginsToken_spell n v _

lemma endLine_of_getLast? {x : Char} (hlast : cs.getLast? = some x) (hx : isBreak x = false) :
    endLine cs = cs ++ ['\n'] := by
  rw [endLine, hlast, Option.any_some, hx, if_neg (by simp)]

/-! ### The spelling of a simple key -/

lemma length_escaped_le {c : Char} (hc : c.toNat ≤ 0xFFFF) : (escaped c).length ≤ 5 := by
  unfold escaped
  split
  case h_16 =>
    split
    next hn =>
      have hlength : (hexDigits 2 c.toNat).length = 2 := length_hexDigits (by decide) (by omega)
      simp [hlength]
    next =>
      have hlength : (hexDigits 4 c.toNat).length = 4 := length_hexDigits (by decide) (by omega)
      simp [hlength]
  all_goals decide

lemma length_doubleQuotedChar_le (c : Char) : (doubleQuotedChar c).length ≤ 6 := by
  rw [doubleQuotedChar_eq]
  split
  next hc =>
    have hle : c.toNat ≤ 0xFFFF := by
      by_contra hlt
      have hshown : Style.isShown c = true := by
        simp only [Style.isShown, Bool.or_eq_true, decide_eq_true_eq]
        exact .inr (by omega)
      simp only [isEscaped, hshown, isBreak, Bool.or_eq_true, beq_iff_eq, Bool.not_true,
        Bool.false_eq_true, false_or] at hc
      rcases hc with ((((((rfl | rfl) | rfl) | rfl) | rfl)) | rfl) | rfl
      all_goals exact hlt (by decide)
    have hescaped := length_escaped_le hle
    simp only [List.length_cons]
    omega
  next => simp

lemma length_flatMap_le {f : Char → List Char} {n : Nat} (h : ∀ c, (f c).length ≤ n)
    (cs : List Char) : (cs.flatMap f).length ≤ n * cs.length := by
  induction cs with
  | nil => simp
  | cons c cs ih =>
    have hc := h c
    rw [List.flatMap_cons, List.length_append, List.length_cons, Nat.mul_add]
    omega

lemma isLine_singleQuotedChar {c : Char} (hc : isBreak c = false) :
    IsLine (singleQuotedChar c) := by
  unfold singleQuotedChar
  split
  · decide
  · simpa [IsLine] using hc

lemma length_singleQuotedChar_le (c : Char) : (singleQuotedChar c).length ≤ 2 := by
  unfold singleQuotedChar
  split <;> simp

lemma isLine_flatMap_of_mem {f : Char → List Char} (h : ∀ c ∈ cs, IsLine (f c)) :
    IsLine (cs.flatMap f) := by
  intro x hx
  obtain ⟨c, hc, hx⟩ := List.mem_flatMap.1 hx
  exact h c hc x hx

/-- A text of one line has a spelling of one line that is not much longer. -/
lemma isLine_spell {v : String} (hv : IsLine v.toList) (n : Nat) :
    IsLine (spell n v) ∧ (spell n v).length ≤ 6 * v.toList.length + 2 := by
  have hspelled := spelled n v
  generalize Style.ofString v = style at hspelled
  generalize spell n v = sp at hspelled
  cases hspelled with
  | plain => exact ⟨hv, by omega⟩
  | single =>
    have hline : IsLine (v.toList.flatMap singleQuotedChar ++ ['\'']) :=
      (isLine_flatMap_of_mem fun c hc => isLine_singleQuotedChar (hv c hc)).append (by decide)
    have hindented : indentLines n false (v.toList.flatMap singleQuotedChar ++ ['\'']) =
        v.toList.flatMap singleQuotedChar ++ ['\''] := by
      simpa [indentLines] using indentLines_append hline n []
    have hle := length_flatMap_le length_singleQuotedChar_le v.toList
    rw [hindented]
    refine ⟨List.forall_mem_cons.2 ⟨rfl, hline⟩, ?_⟩
    simp only [List.length_cons, List.length_append, List.length_nil]
    omega
  | double =>
    have hline : IsLine (v.toList.flatMap doubleQuotedChar ++ ['"']) :=
      (isLine_flatMap_of_mem fun c _ => isLine_doubleQuotedChar c).append (by decide)
    have hle := length_flatMap_le length_doubleQuotedChar_le v.toList
    refine ⟨List.forall_mem_cons.2 ⟨rfl, hline⟩, ?_⟩
    simp only [List.cons_append, List.length_cons, List.length_append, List.length_nil]
    omega
  | literal _ hlf => exact absurd (hv _ hlf) (by decide)

lemma length_le_utf8ByteSize (s : String) : s.toList.length ≤ s.utf8ByteSize := by
  have hsize : s.utf8ByteSize = (s.toList.flatMap String.utf8EncodeChar).length := by
    rw [String.utf8ByteSize, ← String.utf8Encode_toList, List.utf8Encode, List.size_toByteArray]
  rw [hsize]
  induction s.toList with
  | nil => simp
  | cons c cs ih =>
    have hpos := c.utf8Size_pos
    rw [List.flatMap_cons, List.length_append, String.length_utf8EncodeChar, List.length_cons]
    omega

/-! ### The characters of a spelling -/

lemma isShown_of_isGraphic {c : Char} (h : IsGraphic c) : Style.isShown c = true := by
  have hle : 0x20 ≤ c.toNat ∧ c.toNat ≤ 0x7E := ⟨by have := h.1; omega, h.2⟩
  simp [Style.isShown, hle]

lemma isAllowed_of_isShown {c : Char} (h : Style.isShown c = true) : isAllowed c = true := by
  simp only [Style.isShown, isAllowed, Bool.or_eq_true, Bool.and_eq_true, beq_iff_eq, bne_iff_ne,
    decide_eq_true_eq] at h ⊢
  omega

lemma isShown_of_needsEscapes (h : Style.needsEscapes cs = false) :
    ∀ c ∈ cs, Style.isShown c = true := by
  simp only [Style.needsEscapes, Bool.or_eq_false_iff, List.any_eq_false] at h
  exact fun c hc => by simpa using h.1 c hc

lemma eq_space_or_mem_of_mem_indentLines {c : Char} {n : Nat} {atStart : Bool}
    (h : c ∈ indentLines n atStart cs) : c = ' ' ∨ c ∈ cs := by
  induction cs generalizing atStart with
  | nil => cases h
  | cons d cs ih =>
    unfold indentLines at h
    split at h
    · rcases List.mem_cons.1 h with rfl | h
      · exact .inr List.mem_cons_self
      · exact (ih h).imp_right (List.mem_cons_of_mem _)
    · rcases List.mem_append.1 h with h | h
      · split at h
        · exact .inl (List.eq_of_mem_replicate h)
        · cases h
      · rcases List.mem_cons.1 h with rfl | h
        · exact .inr List.mem_cons_self
        · exact (ih h).imp_right (List.mem_cons_of_mem _)

lemma isShown_of_mem_indentLines {n : Nat} {atStart : Bool}
    (hcs : ∀ c ∈ cs, Style.isShown c = true) :
    ∀ c ∈ indentLines n atStart cs, Style.isShown c = true := by
  intro c hc
  rcases eq_space_or_mem_of_mem_indentLines hc with rfl | hc
  · rfl
  · exact hcs c hc

lemma isShown_of_mem_literalHints {c : Char} (h : c ∈ literalHints cs) :
    Style.isShown c = true := by
  have hhint : c = '2' ∨ c = '-' ∨ c = '+' := by
    unfold literalHints at h
    rcases List.mem_append.1 h with h | h
    · split at h
      · exact .inl (List.mem_singleton.1 h)
      · cases h
    · split at h
      · exact .inr (.inl (List.mem_singleton.1 h))
      · split at h
        · exact .inr (.inl (List.mem_singleton.1 h))
        · split at h
          · exact .inr (.inr (List.mem_singleton.1 h))
          · cases h
  rcases hhint with rfl | rfl | rfl <;> rfl

lemma isShown_of_mem_doubleQuotedChar {c x : Char} (h : x ∈ doubleQuotedChar c) :
    Style.isShown x = true := by
  rw [doubleQuotedChar_eq] at h
  split at h
  next =>
    rcases List.mem_cons.1 h with rfl | h
    · rfl
    · exact isShown_of_isGraphic (isGraphic_of_mem_escaped h)
  next hc =>
    rw [List.mem_singleton.1 h]
    simp only [isEscaped, Bool.or_eq_true, not_or] at hc
    simpa using hc.1.1.1

/-- Nothing in a spelling needs an escape. -/
lemma isShown_of_mem_spell {n : Nat} {v : String} : ∀ c ∈ spell n v, Style.isShown c = true := by
  have hspelled := spelled n v
  generalize Style.ofString v = style at hspelled
  generalize spell n v = sp at hspelled ⊢
  cases hspelled with
  | plain hplain => exact hplain.shown
  | single hsingle =>
    simp only [Style.allowsSingle, Bool.and_eq_true, Bool.not_eq_true'] at hsingle
    refine List.forall_mem_cons.2 ⟨rfl, isShown_of_mem_indentLines ?_⟩
    refine List.forall_mem_append.2 ⟨fun c hc => ?_, List.all_eq_true.1 rfl⟩
    obtain ⟨d, hd, hc⟩ := List.mem_flatMap.1 hc
    unfold singleQuotedChar at hc
    split at hc
    · obtain rfl : c = '\'' := by simpa using hc
      rfl
    · rw [List.mem_singleton.1 hc]
      exact isShown_of_needsEscapes hsingle.1 d hd
  | double =>
    refine List.forall_mem_cons.2
      ⟨rfl, List.forall_mem_append.2 ⟨fun c hc => ?_, List.all_eq_true.1 rfl⟩⟩
    obtain ⟨d, -, hc⟩ := List.mem_flatMap.1 hc
    exact isShown_of_mem_doubleQuotedChar hc
  | literal hliteral =>
    simp only [Style.allowsLiteral, Bool.and_eq_true, Bool.not_eq_true'] at hliteral
    refine List.forall_mem_cons.2 ⟨rfl, List.forall_mem_append.2 ⟨fun c hc => ?_, ?_⟩⟩
    · exact isShown_of_mem_literalHints hc
    · have hshown := isShown_of_needsEscapes hliteral.1
      exact List.forall_mem_cons.2 ⟨rfl, isShown_of_mem_indentLines hshown⟩

end Depot.Yaml
