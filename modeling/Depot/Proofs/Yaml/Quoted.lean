import Depot.Proofs.Yaml.Plain
import Mathlib.Algebra.Group.Nat.Defs
import Mathlib.Data.List.Basic

/-!
# Quoted scalars read back

Between quotes, a text is read as itself (`readQuoted_single`, `readQuoted_double`). It is taken
apart into words, whose characters are read one after another, each from its own spelling, and into
gaps of spaces or of line breaks.
-/

namespace Depot.Yaml

variable {c : Char} {cs w rest e : List Char} {m : Mark}

/-! ### Hexadecimal digits -/

lemma hexDigit?_toUpper_digitChar : ∀ d < 16, hexDigit? (Nat.digitChar d).toUpper = some d := by
  decide

lemma hexValue?_append (ds : List Char) (d : Char) :
    hexValue? (ds ++ [d]) = do return 16 * (← hexValue? ds) + (← hexDigit? d) := by
  simp [hexValue?]

lemma hexValue?_toDigits (n : Nat) :
    hexValue? ((Nat.toDigits 16 n).map Char.toUpper) = some n := by
  induction n using Nat.strongRecOn with
  | ind n ih =>
    rw [Nat.toDigits_eq_if (by decide)]
    split
    next hn =>
      simp [hexValue?, hexDigit?_toUpper_digitChar n hn]
    next hn =>
      have hdigit := hexDigit?_toUpper_digitChar (n % 16) (Nat.mod_lt _ (by decide))
      rw [List.map_append, List.map_singleton, hexValue?_append, ih (n / 16) (by omega), hdigit]
      simp [Nat.div_add_mod]

lemma hexValue?_zeros (k : Nat) (ds : List Char) :
    hexValue? (List.replicate k '0' ++ ds) = hexValue? ds := by
  induction k with
  | zero => rfl
  | succ k ih =>
    rw [List.replicate_succ, List.cons_append, ← ih]
    rfl

lemma hexValue?_hexDigits (width n : Nat) : hexValue? (hexDigits width n) = some n := by
  rw [hexDigits, hexValue?_zeros, hexValue?_toDigits]

lemma length_hexDigits {width n : Nat} (hwidth : 0 < width) (hn : n < 16 ^ width) :
    (hexDigits width n).length = width := by
  have hlength := (Nat.length_toDigits_le_iff (by decide) hwidth).2 hn
  simp only [hexDigits, List.length_append, List.length_replicate, List.length_map]
  omega

/-! ### Escapes -/

lemma readEscape_code {start : Mark} {x : Char} {width : Nat} (hx : escape? x = some (.code width))
    (hwidth : 0 < width) (hc : c.toNat < 16 ^ width) :
    readEscape start ⟨'\\' :: x :: (hexDigits width c.toNat ++ e), m⟩ =
      .ok (c, ⟨e, m.right (2 + width)⟩) := by
  have hlength := length_hexDigits hwidth hc
  have hvalid : c.toNat.isValidChar := c.valid
  have hcursor : ((Cursor.mk ('\\' :: x :: (hexDigits width c.toNat ++ e)) m).skip 2) =
      ⟨hexDigits width c.toNat ++ e, m.right 2⟩ := rfl
  have hskip : (Cursor.mk (hexDigits width c.toNat ++ e) (m.right 2)).skip width =
      ⟨e, m.right (2 + width)⟩ := by
    rw [Cursor.skip, List.drop_left' hlength, Mark.right_right]
  simp only [readEscape, List.drop_succ_cons, List.drop_zero, List.head?_cons, Option.bind_some, hx,
    hcursor, List.take_left' hlength, hlength, if_true, hexValue?_hexDigits, hvalid, hskip,
    Char.ofNat_toNat]

lemma readEscape_named {start : Mark} {x : Char} (hx : escape? x = some (.character c)) :
    readEscape start ⟨'\\' :: x :: e, m⟩ = .ok (c, ⟨e, m.right 2⟩) := by
  simp only [readEscape, List.drop_succ_cons, List.drop_zero, List.head?_cons, Option.bind_some, hx]
  rfl

/-- The escape of a character stands for it. -/
lemma readEscape_escaped (start : Mark) (c : Char) (e : List Char) (m : Mark) :
    readEscape start ⟨'\\' :: (escaped c ++ e), m⟩ =
      .ok (c, ⟨e, m.right ('\\' :: escaped c).length⟩) := by
  have hcode : ∀ x width, escape? x = some (.code width) → 0 < width → c.toNat < 16 ^ width →
      readEscape start ⟨'\\' :: x :: (hexDigits width c.toNat ++ e), m⟩ =
        .ok (c, ⟨e, m.right ('\\' :: x :: hexDigits width c.toNat).length⟩) := by
    intro x width hx hwidth hc
    rw [readEscape_code hx hwidth hc, List.length_cons, List.length_cons,
      length_hexDigits hwidth hc, Nat.add_comm 2]
  unfold escaped
  split
  case h_16 =>
    have hvalid : c.toNat.isValidChar := c.valid
    simp only [Nat.isValidChar] at hvalid
    split
    next hn => exact hcode 'x' 2 rfl (by decide) (by omega)
    next =>
      split
      next hn => exact hcode 'u' 4 rfl (by decide) (by omega)
      next => exact hcode 'U' 8 rfl (by decide) (by omega)
  all_goals
    next h =>
    obtain rfl : c = _ := (Char.ofNat_toNat c).symm.trans (congrArg Char.ofNat h)
    exact readEscape_named rfl

/-! ### What escapes are made of -/

/-- A printable character of one octet other than the space. -/
def IsGraphic (c : Char) : Prop :=
  0x21 ≤ c.toNat ∧ c.toNat ≤ 0x7E

instance : Decidable (IsGraphic c) :=
  inferInstanceAs (Decidable (_ ∧ _))

lemma IsGraphic.isBreak_eq_false (h : IsGraphic c) : isBreak c = false := by
  rw [← Bool.not_eq_true]
  intro hbreak
  simp only [isBreak, Bool.or_eq_true, beq_iff_eq] at hbreak
  rcases hbreak with (((rfl | rfl) | rfl) | rfl) | rfl
  all_goals exact absurd h (by decide)

lemma isGraphic_digit : ∀ d < 16, IsGraphic (Nat.digitChar d).toUpper := by
  decide

lemma exists_digitChar {n : Nat} (hc : c ∈ Nat.toDigits 16 n) : ∃ d < 16, c = Nat.digitChar d := by
  induction n using Nat.strongRecOn with
  | ind n ih =>
    rw [Nat.toDigits_eq_if (by decide)] at hc
    split at hc
    next hn => exact ⟨n, hn, List.mem_singleton.1 hc⟩
    next hn =>
      rcases List.mem_append.1 hc with hc | hc
      · exact ih (n / 16) (by omega) hc
      · exact ⟨n % 16, Nat.mod_lt _ (by decide), List.mem_singleton.1 hc⟩

lemma isGraphic_of_mem_hexDigits {width n : Nat} (hc : c ∈ hexDigits width n) : IsGraphic c := by
  rcases List.mem_append.1 hc with hc | hc
  · rw [List.eq_of_mem_replicate hc]
    decide
  · obtain ⟨d, hd, rfl⟩ := List.mem_map.1 hc
    obtain ⟨k, hk, rfl⟩ := exists_digitChar hd
    exact isGraphic_digit k hk

lemma isGraphic_of_mem_escaped {x : Char} (hx : x ∈ escaped c) : IsGraphic x := by
  unfold escaped at hx
  split at hx
  case h_16 =>
    split at hx
    next =>
      rcases List.mem_cons.1 hx with rfl | hx
      · decide
      · exact isGraphic_of_mem_hexDigits hx
    next =>
      split at hx
      all_goals
        rcases List.mem_cons.1 hx with rfl | hx
        · decide
        · exact isGraphic_of_mem_hexDigits hx
  all_goals
    rw [List.mem_singleton.1 hx]
    decide

lemma escaped_ne_nil (c : Char) : escaped c ≠ [] := by
  unfold escaped
  split
  case h_16 =>
    split
    next => simp
    next => split <;> simp
  all_goals simp

/-! ### Indented lines -/

lemma indentLines_append (hcs : IsLine cs) (n : Nat) (rest : List Char) :
    indentLines n false (cs ++ rest) = cs ++ indentLines n false rest := by
  induction cs with
  | nil => rfl
  | cons c cs ih =>
    obtain ⟨hc, hcs⟩ := List.forall_mem_cons.1 hcs
    rw [List.cons_append, indentLines, hc, ih hcs]
    rfl

lemma indentLines_breaks (hcs : ∀ c ∈ cs, isBreak c = true) (n : Nat) (atStart : Bool)
    (rest : List Char) :
    indentLines n atStart (cs ++ rest) = cs ++ indentLines n (atStart || !cs.isEmpty) rest := by
  induction cs generalizing atStart with
  | nil => simp
  | cons c cs ih =>
    obtain ⟨hc, hcs⟩ := List.forall_mem_cons.1 hcs
    rw [List.cons_append, indentLines, if_pos hc, ih hcs]
    simp

lemma indentLines_start {x : Char} (hx : isBreak x = false) (n : Nat) (rest : List Char) :
    indentLines n true (x :: rest) = spaces n ++ indentLines n false (x :: rest) := by
  simp [indentLines, hx]

/-! ### Words -/

section Words

variable {single : Bool} {q : Char → List Char} {start : Mark} {done : List Char} {n : Nat}

/-- A character that one step of the reader takes from its spelling. -/
structure Reads (single : Bool) (q : Char → List Char) (c : Char) : Prop where
  isLine : IsLine (q c)
  begins : ∃ x r, q c = x :: r ∧ isBlank x = false
  step : ∀ start fuel done e m, readQuotedWord single start (fuel + 1) done ⟨q c ++ e, m⟩ =
    readQuotedWord single start fuel (c :: done) ⟨e, m.past (q c)⟩

/-- A place where no word goes on. -/
def StopsQuoted (single : Bool) (e : List Char) : Prop :=
  ∀ start fuel done m, readQuotedWord single start fuel done ⟨e, m⟩ = .ok (done, false, ⟨e, m⟩)

lemma stopsQuoted_of_gap {x : Char} (hx : (isBlank x || isBreak x) = true) :
    StopsQuoted single (x :: e) := by
  intro start fuel done m
  cases fuel with
  | zero => rfl
  | succ fuel =>
    rw [readQuotedWord]
    simp only [hx, if_true]

lemma readQuotedWord_append {fuel : Nat} (hw : ∀ c ∈ w, Reads single q c)
    (he : StopsQuoted single e) (hfuel : w.length ≤ fuel) :
    readQuotedWord single start fuel done ⟨w.flatMap q ++ e, m⟩ =
      .ok (w.reverse ++ done, false, ⟨e, m.past (w.flatMap q)⟩) := by
  induction w generalizing fuel done m with
  | nil => exact he start fuel done m
  | cons c w ih =>
    obtain ⟨hc, hw⟩ := List.forall_mem_cons.1 hw
    cases fuel with
    | zero => simp at hfuel
    | succ fuel =>
      rw [List.flatMap_cons, List.append_assoc, hc.step, ih hw (by simpa using hfuel),
        Mark.past_append]
      simp

lemma isLine_flatMap (hw : ∀ c ∈ w, Reads single q c) : IsLine (w.flatMap q) := by
  intro x hx
  obtain ⟨c, hc, hx⟩ := List.mem_flatMap.1 hx
  exact (hw c hc).isLine x hx

/-- A line break that stands for itself between quotes. -/
structure BreaksQuoted (q : Char → List Char) (c : Char) : Prop where
  isBreak : isBreak c = true
  ne_cr : c ≠ '\r'
  ne_lf : c ≠ '\n'
  text : breakText c = c
  spelling : q c = [c]

/-- A text whose characters are spelled so that the reader takes them one by one, but for gaps of
spaces and gaps of line breaks. -/
structure IsQuotable (single : Bool) (q : Char → List Char) (cs : List Char) : Prop where
  chars : ∀ c ∈ cs, Reads single q c ∨ c = ' ' ∧ q c = [' '] ∨ BreaksQuoted q c
  pure : ∀ a x y b, cs = a ++ x :: y :: b →
    ¬ (x = ' ' ∧ BreaksQuoted q y) ∧ ¬ (BreaksQuoted q x ∧ y = ' ')

lemma IsQuotable.tail (h : IsQuotable single q (w ++ cs)) : IsQuotable single q cs where
  chars := fun c hc => h.chars c (by simp [hc])
  pure := by
    rintro a x y b rfl
    exact h.pure (w ++ a) x y b (by simp)

/-- A text begins with a run of characters of a kind. -/
lemma exists_run (P : Char → Prop) (cs : List Char) :
    ∃ w r, cs = w ++ r ∧ (∀ c ∈ w, P c) ∧ ∀ c ∈ r.head?, ¬ P c := by
  induction cs with
  | nil => exact ⟨[], [], rfl, by simp, by simp⟩
  | cons c cs ih =>
    by_cases hc : P c
    · obtain ⟨w, r, rfl, hw, hr⟩ := ih
      exact ⟨c :: w, r, rfl, List.forall_mem_cons.2 ⟨hc, hw⟩, hr⟩
    · exact ⟨[], c :: cs, rfl, by simp, by simpa using hc⟩

lemma length_le_flatMap (hw : ∀ c ∈ w, Reads single q c) : w.length ≤ (w.flatMap q).length := by
  induction w with
  | nil => simp
  | cons c w ih =>
    obtain ⟨hc, hw⟩ := List.forall_mem_cons.1 hw
    obtain ⟨x, r, hx, -⟩ := hc.begins
    have hle := ih hw
    simp only [List.flatMap_cons, hx, List.length_append, List.length_cons]
    omega

/-- The quote at the end. -/
def closing (single : Bool) : Char :=
  if single then '\'' else '"'

/-- The spelling of a text behind the opening quote. -/
def quotedRest (single : Bool) (q : Char → List Char) (n : Nat) (cs : List Char) : List Char :=
  indentLines n false (cs.flatMap q ++ [closing single])

lemma isBreak_closing : isBreak (closing single) = false := by
  cases single <;> rfl

lemma quotedRest_nil : quotedRest single q n [] = [closing single] := by
  simp [quotedRest, indentLines, isBreak_closing]

lemma quotedRest_append (hw : IsLine (w.flatMap q)) (cs : List Char) :
    quotedRest single q n (w ++ cs) = w.flatMap q ++ quotedRest single q n cs := by
  rw [quotedRest, List.flatMap_append, List.append_assoc, indentLines_append hw, quotedRest]

lemma exists_flatMap_eq_cons (hcs : ∀ c ∈ cs.head?, Reads single q c) : ∃ x r,
    cs.flatMap q ++ [closing single] = x :: r ∧ isBlank x = false ∧ isBreak x = false := by
  cases cs with
  | nil => cases single <;> exact ⟨_, _, rfl, rfl, rfl⟩
  | cons c cs =>
    have hc := hcs c rfl
    obtain ⟨x, r, hx, hblank⟩ := hc.begins
    exact ⟨x, _, by rw [List.flatMap_cons, hx]; rfl, hblank, hc.isLine x (by simp [hx])⟩

lemma beginsWord_quotedRest (hcs : ∀ c ∈ cs.head?, Reads single q c) (n : Nat)
    (rest : List Char) : BeginsWord (quotedRest single q n cs ++ rest) := by
  obtain ⟨x, r, hx, hblank, hbreak⟩ := exists_flatMap_eq_cons hcs
  rw [quotedRest, hx, indentLines, hbreak]
  rintro y ⟨⟩
  simp [hblank, hbreak]

lemma quotedRest_breaks {bs : List Char} (hbs : ∀ b ∈ bs, BreaksQuoted q b) (hne : bs ≠ [])
    (hcs : ∀ c ∈ cs.head?, Reads single q c) :
    quotedRest single q n (bs ++ cs) = bs ++ (spaces n ++ quotedRest single q n cs) := by
  have hflat : bs.flatMap q = bs := by
    have hmap : bs.flatMap q = bs.flatMap fun b => [b] :=
      List.flatMap_congr fun b hb => (hbs b hb).spelling
    rw [hmap, List.flatMap_singleton']
  obtain ⟨x, r, hx, -, hbreak⟩ := exists_flatMap_eq_cons hcs
  rw [quotedRest, List.flatMap_append, hflat, List.append_assoc,
    indentLines_breaks fun b hb => (hbs b hb).isBreak, quotedRest, hx,
    show (false || !bs.isEmpty) = true by simpa using hne, indentLines_start hbreak]

lemma isGap_breaks {bs : List Char} (hbs : ∀ b ∈ bs, BreaksQuoted q b) (n : Nat) :
    IsGap (bs ++ spaces n) := by
  intro c hc
  rcases List.mem_append.1 hc with hc | hc
  · exact .inr ⟨(hbs c hc).isBreak, (hbs c hc).ne_cr⟩
  · exact isGap_spaces n c hc

lemma breaks_of_gap {bs : List Char} (hbs : ∀ b ∈ bs, BreaksQuoted q b) (n : Nat) :
    ((bs ++ spaces n).filter isBreak).map breakText = bs := by
  have hspaces : (spaces n).filter isBreak = [] :=
    List.filter_eq_nil_iff.2 fun c hc => by simp [isLine_spaces n c hc]
  rw [List.filter_append, hspaces, List.append_nil, List.filter_eq_self.2 fun b hb => (hbs b hb).isBreak]
  exact (List.map_congr_left fun b hb => (hbs b hb).text).trans (List.map_id bs)

/-- A gap that begins with a space has nothing but spaces. -/
lemma IsQuotable.exists_spaces {r : List Char} (h : IsQuotable single q (w ++ ' ' :: r)) :
    ∃ k ds, ' ' :: r = spaces (k + 1) ++ ds ∧ ∀ d ∈ ds.head?, Reads single q d := by
  obtain ⟨k, ds, rfl, hspace⟩ := Yaml.exists_spaces r
  have hspaces : ' ' :: (spaces k ++ ds) = spaces (k + 1) ++ ds := by
    simp [spaces, List.replicate_succ]
  refine ⟨k, ds, hspaces, fun d hd => ?_⟩
  obtain ⟨ds, rfl⟩ := List.head?_eq_some_iff.1 hd
  have hpure := h.pure (w ++ spaces k) ' ' d ds (by
    rw [hspaces]
    simp [spaces, List.replicate_succ'])
  rcases h.chars d (by simp) with hreads | ⟨rfl, -⟩ | hbreak
  · exact hreads
  · exact absurd rfl hspace
  · exact absurd ⟨rfl, hbreak⟩ hpure.1

/-- A gap that begins with a line break has nothing but line breaks. -/
lemma IsQuotable.exists_breaks {r : List Char} (h : IsQuotable single q (w ++ c :: r))
    (hc : BreaksQuoted q c) : ∃ bs ds, r = bs ++ ds ∧ (∀ b ∈ bs, BreaksQuoted q b) ∧
      ∀ d ∈ ds.head?, Reads single q d := by
  obtain ⟨bs, ds, rfl, hbs, hds⟩ := exists_run (BreaksQuoted q) r
  refine ⟨bs, ds, rfl, hbs, fun d hd => ?_⟩
  have hnot := hds d hd
  obtain ⟨ds, rfl⟩ := List.head?_eq_some_iff.1 hd
  rcases h.chars d (by simp) with hreads | ⟨rfl, -⟩ | hbreak
  · exact hreads
  · obtain ⟨before, last, hlast⟩ := (List.eq_nil_or_concat' (c :: bs)).resolve_left (by simp)
    have hpure := h.pure (w ++ before) last ' ' ds (by
      rw [← List.cons_append, hlast]
      simp)
    have hmem : last ∈ c :: bs := by simp [hlast]
    exact absurd ⟨(List.forall_mem_cons.2 ⟨hc, hbs⟩) last hmem, rfl⟩ hpure.2
  · exact absurd hbreak hnot

/-- One word, up to the closing quote or to a gap. -/
lemma readQuotedWords_word {fuel : Nat} (hw : ∀ c ∈ w, Reads single q c) (hm : m.column ≠ 0)
    (he : StopsQuoted single e) (hne : e ≠ []) :
    readQuotedWords single start (fuel + 1) done ⟨w.flatMap q ++ e, m⟩ =
      if (Cursor.mk e (m.past (w.flatMap q))).sees (closing single) then
        .ok (w.reverse ++ done, (Cursor.mk e (m.past (w.flatMap q))).skip 1)
      else
        match readGap 0 false ⟨e, m.past (w.flatMap q)⟩ with
        | .error m => .error (.within .quotedScalar start .endOfStream m)
        | .ok (gap, c) =>
          readQuotedWords single start fuel (gap.text.reverse ++ (w.reverse ++ done)) c := by
  have hfuel : w.length ≤ (w.flatMap q ++ e).length := by
    have hle := length_le_flatMap hw
    simp only [List.length_append]
    omega
  have hempty : (w.flatMap q ++ e).isEmpty = false := by simp [hne]
  have hmark : ∀ x, (Cursor.mk (w.flatMap q ++ e) m).atDocumentMark x = false := by
    simp [Cursor.atDocumentMark, hm]
  rw [readQuotedWords, hmark, hmark]
  simp only [hempty, readQuotedWord_append hw he hfuel, Bool.or_self, Bool.false_eq_true, if_false]
  rfl

/-- A gap in a text, its spelling, and the text behind it. -/
structure Spaced (single : Bool) (q : Char → List Char) (n : Nat) (gap s ds : List Char) :
    Prop where
  rest_eq : quotedRest single q n (gap ++ ds) = s ++ quotedRest single q n ds
  begins : ∃ x r, s = x :: r ∧ (isBlank x || isBreak x) = true
  column : ∀ m : Mark, m.column ≠ 0 → (m.past s).column ≠ 0
  reads : ∀ rest m, ∃ g : Gap, g.text = gap ∧
    readGap 0 false ⟨s ++ (quotedRest single q n ds ++ rest), m⟩ =
      .ok (g, ⟨quotedRest single q n ds ++ rest, m.past s⟩)

variable {s ds : List Char}

lemma spaced_spaces (hq : q ' ' = [' ']) (hds : ∀ d ∈ ds.head?, Reads single q d) (n k : Nat) :
    Spaced single q n (spaces (k + 1)) (spaces (k + 1)) ds where
  rest_eq := by
    have hflat : (spaces (k + 1)).flatMap q = spaces (k + 1) := by
      simp [spaces, List.flatMap_replicate, hq]
    rw [quotedRest_append (by rw [hflat]; exact isLine_spaces _), hflat]
  begins := ⟨' ', spaces k, rfl, rfl⟩
  column m _ := by simp [Mark.past_spaces, Mark.right]
  reads rest m := by
    rw [Mark.past_spaces]
    exact ⟨_, rfl, readGap_spaces 0 (k + 1) (beginsWord_quotedRest hds n rest)⟩

/-- The line breaks are read as they are, and the indentation behind them is not. -/
lemma spaced_breaks {b : Char} {bs : List Char} (hbs : ∀ c ∈ b :: bs, BreaksQuoted q c)
    (hds : ∀ d ∈ ds.head?, Reads single q d) (hn : 0 < n) :
    Spaced single q n (b :: bs) (b :: (bs ++ spaces n)) ds := by
  obtain ⟨hb, hmore⟩ := List.forall_mem_cons.1 hbs
  refine ⟨?_, ⟨b, _, rfl, by simp [hb.isBreak]⟩, fun m _ => ?_, fun rest m => ?_⟩
  · rw [quotedRest_breaks hbs (by simp) hds]
    simp
  · have hcolumn := Mark.column_indented (m := m.down 1) (fun c hc => (hmore c hc).isBreak) rfl n
    rw [Mark.past_break hb.isBreak, Mark.past_append, Mark.past_spaces, hcolumn]
    omega
  · have hgap := readGap_lines 0 (m := m) hb.isBreak hb.ne_cr (isGap_breaks hmore n)
      (beginsWord_quotedRest hds n rest)
    rw [breaks_of_gap hmore n, hb.text] at hgap
    refine ⟨_, ?_, hgap⟩
    unfold Gap.text
    split
    · contradiction
    · split
      · contradiction
      · next heq => exact absurd (Option.some.inj heq) hb.ne_lf
      · next heq => rw [Option.some.inj heq]

/-- The characters of a text that are no part of a word begin a gap. -/
lemma IsQuotable.exists_spaced {r : List Char} (h : IsQuotable single q (w ++ c :: r))
    (hc : ¬ Reads single q c) (hn : 0 < n) :
    ∃ gap s ds, c :: r = gap ++ ds ∧ gap ≠ [] ∧ Spaced single q n gap s ds := by
  rcases (h.chars c (by simp)).resolve_left hc with ⟨rfl, hq⟩ | hbreak
  · obtain ⟨k, ds, hk, hds⟩ := h.exists_spaces
    exact ⟨_, _, ds, hk, by simp [spaces], spaced_spaces hq hds n k⟩
  · obtain ⟨bs, ds, rfl, hbs, hds⟩ := h.exists_breaks hbreak
    exact ⟨c :: bs, _, ds, rfl, by simp,
      spaced_breaks (List.forall_mem_cons.2 ⟨hbreak, hbs⟩) hds hn⟩

/-- One word and the gap behind it. -/
lemma readQuotedWords_spaced {fuel : Nat} {gap : List Char} (hw : ∀ c ∈ w, Reads single q c)
    (hm : m.column ≠ 0) (h : Spaced single q n gap s ds) :
    readQuotedWords single start (fuel + 1) done
        ⟨quotedRest single q n (w ++ (gap ++ ds)) ++ rest, m⟩ =
      readQuotedWords single start fuel (gap.reverse ++ (w.reverse ++ done))
        ⟨quotedRest single q n ds ++ rest, (m.past (w.flatMap q)).past s⟩ := by
  obtain ⟨x, r, hs, hx⟩ := h.begins
  have hstop : StopsQuoted single (s ++ (quotedRest single q n ds ++ rest)) := by
    rw [hs]
    exact stopsQuoted_of_gap hx
  have hsees : (Cursor.mk (s ++ (quotedRest single q n ds ++ rest))
      (m.past (w.flatMap q))).sees (closing single) = false := by
    rw [hs]
    refine Cursor.sees_eq_false ?_
    rintro ⟨⟩
    cases single <;> cases hx
  obtain ⟨g, rfl, hgap⟩ := h.reads rest (m.past (w.flatMap q))
  rw [quotedRest_append (isLine_flatMap hw), h.rest_eq, List.append_assoc, List.append_assoc,
    readQuotedWords_word hw hm hstop (by simp [hs]), hsees, hgap]
  rfl

lemma readQuotedWords_text {fuel : Nat} (hfuel : cs.length < fuel) (hcs : IsQuotable single q cs)
    (hn : 0 < n) (hm : m.column ≠ 0) (hstop : StopsQuoted single (closing single :: rest)) :
    readQuotedWords single start fuel done ⟨quotedRest single q n cs ++ rest, m⟩ =
      .ok (cs.reverse ++ done, ⟨rest, m.past (quotedRest single q n cs)⟩) := by
  induction fuel generalizing cs m done with
  | zero => omega
  | succ fuel ih =>
    obtain ⟨w, r, rfl, hw, hr⟩ := exists_run (Reads single q) cs
    have hline := isLine_flatMap hw
    cases r with
    | nil =>
      rw [quotedRest_append hline, quotedRest_nil, List.append_assoc, List.singleton_append,
        readQuotedWords_word hw hm hstop (by simp), if_pos (by simp [Cursor.sees]),
        Mark.past_append, List.append_nil]
      simp [Mark.past, isBreak_closing, Cursor.skip]
    | cons c r =>
      obtain ⟨gap, s, ds, hgap, hne, hspaced⟩ := hcs.exists_spaced (hr c rfl) hn
      rw [hgap] at hcs hfuel ⊢
      have hshorter : ds.length < fuel := by
        have hlength := List.length_pos_iff.2 hne
        simp only [List.length_append] at hfuel
        omega
      have hcolumn : (m.past (w.flatMap q)).column ≠ 0 := by
        rw [Mark.past_of_isLine hline]
        simp only [Mark.right]
        omega
      rw [readQuotedWords_spaced hw hm hspaced,
        ih hshorter hcs.tail.tail (hspaced.column _ hcolumn), quotedRest_append hline,
        hspaced.rest_eq]
      simp [Mark.past_append]

end Words

/-! ### Single quotes -/

lemma not_of_hasNeighbours {p q : Char → Bool} {a b : List Char} {x y : Char}
    (h : Style.hasNeighbours p q (a ++ x :: y :: b) = false) : ¬ (p x = true ∧ q y = true) := by
  induction a with
  | nil =>
    simp only [List.nil_append, Style.hasNeighbours, Bool.or_eq_false_iff] at h
    rintro ⟨hx, hy⟩
    simp [hx, hy] at h
  | cons c a ih =>
    cases a with
    | nil =>
      simp only [List.cons_append, List.nil_append, Style.hasNeighbours, Bool.or_eq_false_iff] at h
      exact ih (by simpa [Style.hasNeighbours] using h.2)
    | cons d a =>
      simp only [List.cons_append, Style.hasNeighbours, Bool.or_eq_false_iff] at h ih
      exact ih (by simpa using h.2)

lemma reads_single (hshown : Style.isShown c = true) (hspace : c ≠ ' ') (hbreak : isBreak c = false) :
    Reads true singleQuotedChar c := by
  have hblank : isBlank c = false := by simp [isBlank, hspace, ne_tab_of_isShown hshown]
  by_cases hc : c = '\''
  · subst hc
    exact ⟨by decide, ⟨_, _, rfl, rfl⟩, fun _ _ _ _ _ => rfl⟩
  · have hq : singleQuotedChar c = [c] := by simp [singleQuotedChar, hc]
    refine ⟨by simpa [hq, IsLine] using hbreak, ⟨c, [], hq, hblank⟩, fun start fuel done e m => ?_⟩
    rw [hq, List.singleton_append, readQuotedWord]
    simp [hblank, hbreak, hc, Mark.past, Cursor.skip]

lemma breaksQuoted_single (hshown : Style.isShown c = true) (hbreak : isBreak c = true)
    (hlf : c ≠ '\n') : BreaksQuoted singleQuotedChar c := by
  have hc : c = '\u2028' ∨ c = '\u2029' := by
    simp only [isBreak, Bool.or_eq_true, beq_iff_eq] at hbreak
    rcases hbreak with (((rfl | rfl) | rfl) | rfl) | rfl
    · exact absurd rfl hlf
    · exact absurd hshown (by decide)
    · exact absurd hshown (by decide)
    · exact .inl rfl
    · exact .inr rfl
  rcases hc with rfl | rfl
  all_goals exact ⟨rfl, by decide, by decide, rfl, rfl⟩

lemma isQuotable_single (hcs : Style.allowsSingle cs = true) (hlf : '\n' ∉ cs) :
    IsQuotable true singleQuotedChar cs := by
  simp only [Style.allowsSingle, Style.needsEscapes, Bool.and_eq_true, Bool.not_eq_true',
    Bool.or_eq_false_iff, List.any_eq_false] at hcs
  obtain ⟨⟨hshown, hbefore⟩, hafter⟩ := hcs
  constructor
  · intro c hc
    have hc' : Style.isShown c = true := by simpa using hshown c hc
    by_cases hspace : c = ' '
    · subst hspace
      exact .inr (.inl ⟨rfl, rfl⟩)
    by_cases hbreak : isBreak c = true
    · refine .inr (.inr (breaksQuoted_single hc' hbreak ?_))
      rintro rfl
      exact hlf hc
    · exact .inl (reads_single hc' hspace (by simpa using hbreak))
  · rintro a x y b rfl
    constructor
    · rintro ⟨rfl, hy⟩
      exact not_of_hasNeighbours hbefore ⟨rfl, hy.isBreak⟩
    · rintro ⟨hx, rfl⟩
      exact not_of_hasNeighbours hafter ⟨hx.isBreak, rfl⟩

lemma stopsQuoted_single (h : rest.head? ≠ some '\'') : StopsQuoted true ('\'' :: rest) := by
  intro start fuel done m
  cases fuel with
  | zero => rfl
  | succ fuel =>
    rw [readQuotedWord]
    simp [h, isBlank, isBreak]

lemma length_le_indentLines (n : Nat) (atStart : Bool) (cs : List Char) :
    cs.length ≤ (indentLines n atStart cs).length := by
  induction cs generalizing atStart with
  | nil => simp
  | cons c cs ih =>
    rw [indentLines]
    split
    · simpa using ih true
    · have hle := ih false
      simp only [List.length_append, List.length_cons]
      omega

lemma length_le_quotedRest (single : Bool) {q : Char → List Char} (hq : ∀ c, q c ≠ []) (n : Nat)
    (cs : List Char) : cs.length ≤ (quotedRest single q n cs).length := by
  refine Nat.le_trans ?_ (length_le_indentLines n false _)
  induction cs with
  | nil => simp
  | cons c cs ih =>
    have hc : (q c).length ≠ 0 := by simpa using hq c
    simp only [List.flatMap_cons, List.length_append, List.length_cons, List.length_nil] at ih ⊢
    omega

lemma readQuoted_eq {single : Bool} {q : Char → List Char} {n : Nat} (hq : ∀ c, q c ≠ [])
    (hcs : IsQuotable single q cs) (hn : 0 < n)
    (hstop : StopsQuoted single (closing single :: rest)) :
    readQuoted single ⟨closing single :: quotedRest single q n cs ++ rest, m⟩ =
      .ok (⟨.scalar cs false, m, m.past (closing single :: quotedRest single q n cs)⟩,
        ⟨rest, m.past (closing single :: quotedRest single q n cs)⟩) := by
  have hfuel : cs.length < (closing single :: quotedRest single q n cs ++ rest).length + 1 := by
    have hle := length_le_quotedRest single hq n cs
    simp only [List.length_append, List.length_cons]
    omega
  have hwords : readQuotedWords single m _ []
      ((Cursor.mk (closing single :: quotedRest single q n cs ++ rest) m).skip 1) = _ :=
    readQuotedWords_text hfuel hcs hn (by simp [Mark.right]) hstop
  have hmark : m.past (closing single :: quotedRest single q n cs) =
      (m.right 1).past (quotedRest single q n cs) := by
    simp [Mark.past, isBreak_closing]
  simp only [readQuoted, hwords, hmark]
  simp

theorem readQuoted_single {n : Nat} (hcs : Style.allowsSingle cs = true) (hlf : '\n' ∉ cs)
    (hn : 0 < n) (hrest : rest.head? ≠ some '\'') :
    readQuoted true
        ⟨'\'' :: indentLines n false (cs.flatMap singleQuotedChar ++ ['\'']) ++ rest, m⟩ =
      .ok (⟨.scalar cs false, m,
          m.past ('\'' :: indentLines n false (cs.flatMap singleQuotedChar ++ ['\'']))⟩,
        ⟨rest, m.past ('\'' :: indentLines n false (cs.flatMap singleQuotedChar ++ ['\'']))⟩) := by
  have hq : ∀ c, singleQuotedChar c ≠ [] := by
    intro c
    unfold singleQuotedChar
    split <;> simp
  exact readQuoted_eq hq (isQuotable_single hcs hlf) hn (stopsQuoted_single hrest)

/-! ### Double quotes -/

/-- Whether a character needs an escape between double quotes. -/
def isEscaped (c : Char) : Bool :=
  !Style.isShown c || isBreak c || c == '"' || c == '\\'

lemma doubleQuotedChar_eq (c : Char) :
    doubleQuotedChar c = if isEscaped c then '\\' :: escaped c else [c] := rfl

lemma isLine_doubleQuotedChar (c : Char) : IsLine (doubleQuotedChar c) := by
  rw [doubleQuotedChar_eq]
  intro x hx
  split at hx
  next =>
    rcases List.mem_cons.1 hx with rfl | hx
    · rfl
    · exact (isGraphic_of_mem_escaped hx).isBreak_eq_false
  next hc =>
    rw [List.mem_singleton.1 hx]
    simp only [isEscaped, Bool.or_eq_true, not_or] at hc
    simpa using hc.1.1.2

lemma reads_double (hspace : c ≠ ' ') : Reads false doubleQuotedChar c := by
  have hline := isLine_doubleQuotedChar c
  rw [doubleQuotedChar_eq] at hline
  by_cases hc : isEscaped c = true
  · have hq : doubleQuotedChar c = '\\' :: escaped c := by rw [doubleQuotedChar_eq, if_pos hc]
    rw [if_pos hc] at hline
    refine ⟨hq ▸ hline, ⟨_, _, hq, rfl⟩, fun start fuel done e m => ?_⟩
    have hhead : (escaped c ++ e).head?.any isBreak = false := by
      obtain ⟨x, r, hx⟩ := List.exists_cons_of_ne_nil (escaped_ne_nil c)
      have hgraphic : IsGraphic x := isGraphic_of_mem_escaped (c := c) (by simp [hx])
      simp [hx, hgraphic.isBreak_eq_false]
    rw [hq, Mark.past_of_isLine hline, List.cons_append, readQuotedWord]
    simp only [hhead, readEscape_escaped]
    rfl
  · have hq : doubleQuotedChar c = [c] := by rw [doubleQuotedChar_eq, if_neg hc]
    rw [if_neg hc] at hline
    simp only [isEscaped, Bool.or_eq_true, not_or, Bool.not_eq_true', Bool.not_eq_false,
      beq_iff_eq] at hc
    obtain ⟨⟨⟨hshown, hbreak⟩, hquote⟩, hbackslash⟩ := hc
    have hblank : isBlank c = false := by simp [isBlank, hspace, ne_tab_of_isShown hshown]
    refine ⟨hq ▸ hline, ⟨_, _, hq, hblank⟩, fun start fuel done e m => ?_⟩
    rw [hq, Mark.past_of_isLine hline, List.singleton_append, readQuotedWord]
    simp [hblank, hbreak, hquote, hbackslash, Cursor.skip]

lemma isQuotable_double (cs : List Char) : IsQuotable false doubleQuotedChar cs := by
  have hnot : ∀ c, ¬ BreaksQuoted doubleQuotedChar c := by
    rintro c ⟨hbreak, -, -, -, hq⟩
    rw [doubleQuotedChar_eq, if_pos (by simp [isEscaped, hbreak]), List.cons.injEq] at hq
    rw [← hq.1] at hbreak
    exact absurd hbreak (by decide)
  constructor
  · intro c _
    by_cases hspace : c = ' '
    · subst hspace
      exact .inr (.inl ⟨rfl, rfl⟩)
    · exact .inl (reads_double hspace)
  · exact fun a x y b _ => ⟨fun h => hnot y h.2, fun h => hnot x h.1⟩

lemma stopsQuoted_double (rest : List Char) : StopsQuoted false ('"' :: rest) := by
  intro start fuel done m
  cases fuel with
  | zero => rfl
  | succ fuel =>
    rw [readQuotedWord]
    rfl

theorem readQuoted_double (cs rest : List Char) (m : Mark) :
    readQuoted false ⟨'"' :: cs.flatMap doubleQuotedChar ++ ['"'] ++ rest, m⟩ =
      .ok (⟨.scalar cs false, m, m.past ('"' :: cs.flatMap doubleQuotedChar ++ ['"'])⟩,
        ⟨rest, m.past ('"' :: cs.flatMap doubleQuotedChar ++ ['"'])⟩) := by
  have hq : ∀ c, doubleQuotedChar c ≠ [] := by
    intro c
    rw [doubleQuotedChar_eq]
    split <;> simp
  have hline : IsLine (cs.flatMap doubleQuotedChar) := by
    intro x hx
    obtain ⟨c, -, hx⟩ := List.mem_flatMap.1 hx
    exact isLine_doubleQuotedChar c x hx
  have hrest : quotedRest false doubleQuotedChar 1 cs = cs.flatMap doubleQuotedChar ++ ['"'] := by
    rw [← List.append_nil cs, quotedRest_append (by simpa using hline), quotedRest_nil]
    simp [closing]
  have hread := readQuoted_eq (n := 1) (m := m) hq (isQuotable_double cs) (by decide)
    (stopsQuoted_double rest)
  rwa [hrest] at hread

end Depot.Yaml
