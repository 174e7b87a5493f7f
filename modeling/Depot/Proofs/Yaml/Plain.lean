import Depot.Proofs.Result
import Depot.Proofs.Yaml.Mark
import Depot.Yaml.Writer
import Depot.Yaml.Token.Scalar

/-!
# Plain scalars read back

A text that may be plain is read as itself, up to the end of the line or up to the colon behind it
(`readPlain_eq`). The reader goes from word to word; no word of the text ends it, because none looks
like the start of something else.
-/

namespace Depot.Yaml

variable {c : Char} {cs w rest e : List Char} {m : Mark} {limit : Int} {k : Nat}

/-! ### Gaps -/

/-- What may stand in a gap: spaces and line breaks of a single character. -/
def IsGap (cs : List Char) : Prop :=
  ∀ c ∈ cs, c = ' ' ∨ isBreak c = true ∧ c ≠ '\r'

lemma isGap_spaces (n : Nat) : IsGap (spaces n) :=
  fun _ hc => .inl (List.eq_of_mem_replicate hc)

lemma isLine_spaces (n : Nat) : IsLine (spaces n) := by
  intro c hc
  rw [List.eq_of_mem_replicate hc]
  rfl

@[simp] lemma length_spaces (n : Nat) : (spaces n).length = n := List.length_replicate

lemma Mark.past_spaces (m : Mark) (n : Nat) : m.past (spaces n) = m.right n := by
  rw [past_of_isLine (isLine_spaces n), length_spaces]

/-- A text that does not begin with a blank or a line break. -/
abbrev BeginsWord : List Char → Prop :=
  NotAhead fun c => isBlank c || isBreak c

lemma readGapLines_append {more : List Char} (hcs : IsGap cs) (hrest : BeginsWord rest) :
    readGapLines limit more m (cs ++ rest) =
      .ok (more.reverse ++ (cs.filter isBreak).map breakText, ⟨rest, m.past cs⟩) := by
  induction cs generalizing m more with
  | nil =>
    cases rest with
    | nil => simp [readGapLines, Mark.past]
    | cons x rest =>
      have hx := hrest x rfl
      simp only [Bool.or_eq_false_iff] at hx
      have hr : x ≠ '\r' := by
        rintro rfl
        exact absurd hx.2 (by decide)
      have ht : x ≠ '\t' := by
        rintro rfl
        exact absurd hx.1 (by decide)
      simp [readGapLines, hx.1, hx.2, hr, ht, Mark.past]
  | cons c cs ih =>
    obtain ⟨hc, hcs'⟩ := List.forall_mem_cons.1 hcs
    rcases hc with rfl | ⟨hbreak, hr⟩
    · rw [List.cons_append, readGapLines, if_neg (by decide), if_neg (by simp),
        if_pos (by decide), ih hcs']
      · rfl
      · simp
    · rw [List.cons_append, readGapLines, if_pos hbreak, ih hcs', Mark.past_break hbreak]
      · simp [hbreak]
      · simp [hr]

lemma readGap_spaces (limit : Int) (n : Nat) (hrest : BeginsWord rest) :
    readGap limit false ⟨spaces n ++ rest, m⟩ =
      .ok ({ blanks := spaces n }, ⟨rest, m.right n⟩) := by
  have hspan : (Cursor.mk (spaces n ++ rest) m).span isBlank = (spaces n, ⟨rest, m.right n⟩) := by
    have hlength : (spaces n).length = n := List.length_replicate
    rw [Cursor.span_append, hlength]
    · intro c hc
      rw [List.eq_of_mem_replicate hc]
      rfl
    · exact fun c hc => (Bool.or_eq_false_iff.1 (hrest c hc)).1
  have hbreak : (Cursor.mk rest (m.right n)).readBreak? = none :=
    Cursor.readBreak?_of_notAhead fun c hc => (Bool.or_eq_false_iff.1 (hrest c hc)).2
  simp only [readGap, hspan, hbreak, Bool.false_eq_true, if_false]

lemma readGap_lines (limit : Int) (hc : isBreak c = true) (hr : c ≠ '\r') (hcs : IsGap cs)
    (hrest : BeginsWord rest) : readGap limit false ⟨c :: (cs ++ rest), m⟩ =
      .ok ({ first := some (breakText c), more := (cs.filter isBreak).map breakText,
             broken := true }, ⟨rest, m.past (c :: cs)⟩) := by
  have hblank : NotAhead isBlank (c :: (cs ++ rest)) := by
    rintro x ⟨⟩
    exact isBlank_eq_false_of_isBreak hc
  simp only [readGap, Cursor.span_of_notAhead hblank, Cursor.readBreak?_cons hc hr,
    readGapLines_append hcs hrest, Mark.past_break hc, Bool.false_eq_true, if_false]
  rfl

/-! ### Words -/

/-- A place where a plain scalar stops: the end of a word or a colon that ends one. -/
def StopsPlain : List Char → Prop
  | [] => True
  | x :: rest => isBlank x = true ∨ isBreak x = true ∨ x = ':' ∧ Style.endsWord rest = true

lemma readPlainWord_of_stops (h : StopsPlain rest) :
    readPlainWord false m rest = .ok ([], ⟨rest, m⟩) := by
  cases rest with
  | nil => rfl
  | cons x rest =>
    rw [readPlainWord]
    by_cases hx : (isBlank x || isBreak x) = true
    · rw [if_pos hx]
    · obtain ⟨rfl, hends⟩ : x = ':' ∧ Style.endsWord rest = true := by
        rw [Bool.or_eq_true, not_or] at hx
        exact (h.resolve_left hx.1).resolve_left hx.2
      have hstop : (':' == ':' && rest.head?.all fun y => isBlank y || isBreak y) = true := by
        simpa [Style.endsWord] using hends
      rw [if_neg hx, if_neg (by simp), if_pos hstop]

lemma endsWord_of_append (h : Style.endsWord (cs ++ e) = true) : Style.endsWord cs = true := by
  cases cs with
  | nil => rfl
  | cons c cs => exact h

/-- A word without an indicator in it is read as a whole. -/
lemma readPlainWord_append {atWord : Bool} (hw : ∀ c ∈ w, isBlank c = false ∧ isBreak c = false)
    (hindicator : Style.hasIndicator atWord (w ++ cs) = false) (hstop : StopsPlain (cs ++ e)) :
    readPlainWord false m (w ++ (cs ++ e)) = .ok (w, ⟨cs ++ e, m.right w.length⟩) := by
  induction w generalizing atWord m with
  | nil => exact readPlainWord_of_stops hstop
  | cons x w ih =>
    obtain ⟨⟨hblank, hbreak⟩, hw⟩ := List.forall_mem_cons.1 hw
    simp only [List.cons_append, Style.hasIndicator, Bool.or_eq_false_iff] at hindicator
    obtain ⟨⟨hcolon, -⟩, hindicator⟩ := hindicator
    have hnot : ¬ (x == ':' && (w ++ (cs ++ e)).head?.all fun y => isBlank y || isBreak y) = true := by
      intro hends
      rw [Bool.and_eq_true] at hends
      rw [← List.append_assoc] at hends
      rw [hends.1, Bool.true_and] at hcolon
      rw [endsWord_of_append hends.2] at hcolon
      cases hcolon
    rw [List.cons_append, readPlainWord, if_neg (by simp [hblank, hbreak]), if_neg (by simp),
      if_neg hnot, if_neg (by simp), ih hw hindicator, Mark.right_right, List.length_cons,
      Nat.add_comm]
    rfl

/-! ### Texts -/

/-- A text of words that nothing in it keeps from being plain from its first word on. -/
structure IsWords (cs : List Char) : Prop where
  ne_nil : cs ≠ []
  shown : ∀ c ∈ cs, Style.isShown c = true
  isLine : IsLine cs
  head : cs.head? ≠ some ' '
  last : cs.getLast? ≠ some ' '
  indicator : Style.hasIndicator true cs = false

/-- A text that may be plain. -/
structure IsPlain (cs : List Char) : Prop extends IsWords cs where
  begins : Style.beginsIndicator cs = false

lemma isPlain_of_allowsPlain (hne : cs ≠ []) (h : Style.allowsPlain cs = true) : IsPlain cs := by
  simp only [Style.allowsPlain, Style.needsEscapes, Style.hasOuterSpace, Bool.and_eq_true,
    Bool.not_eq_true', Bool.or_eq_false_iff, List.any_eq_false] at h
  obtain ⟨⟨⟨⟨⟨hshown, -⟩, hbreak⟩, hhead, hlast⟩, hbegins⟩, hindicator⟩ := h
  refine ⟨⟨hne, ?_, ?_, ?_, ?_, hindicator⟩, hbegins⟩
  · exact fun c hc => by simpa using hshown c hc
  · exact fun c hc => by simpa using hbreak c hc
  · intro hspace
    rw [hspace] at hhead
    cases hhead
  · intro hspace
    rw [hspace] at hlast
    cases hlast

lemma ne_tab_of_isShown (h : Style.isShown c = true) : c ≠ '\t' := by
  rintro rfl
  exact absurd h (by decide)

lemma exists_spaces (cs : List Char) : ∃ n ds, cs = spaces n ++ ds ∧ ds.head? ≠ some ' ' := by
  induction cs with
  | nil => exact ⟨0, [], rfl, by simp⟩
  | cons c cs ih =>
    by_cases hc : c = ' '
    · subst hc
      obtain ⟨n, ds, rfl, hds⟩ := ih
      exact ⟨n + 1, ds, by simp [spaces, List.replicate_succ], hds⟩
    · exact ⟨0, c :: cs, rfl, by simpa using hc⟩

/-- A text that does not begin with a space is a word and, behind some spaces, another text. -/
lemma exists_word (hne : cs ≠ []) (hhead : cs.head? ≠ some ' ') : ∃ w n ds,
    cs = w ++ (spaces n ++ ds) ∧ w ≠ [] ∧ ' ' ∉ w ∧ ds.head? ≠ some ' ' ∧ (n = 0 → ds = []) := by
  induction cs with
  | nil => exact absurd rfl hne
  | cons c cs ih =>
    have hc : ' ' ≠ c := by
      rintro rfl
      exact hhead rfl
    by_cases hcs : cs = []
    · subst hcs
      exact ⟨[c], 0, [], by simp [spaces], by simp, by simp [hc], by simp, fun _ => rfl⟩
    by_cases hspace : cs.head? = some ' '
    · obtain ⟨n, ds, rfl, hds⟩ := exists_spaces cs
      refine ⟨[c], n, ds, by simp, by simp, by simp [hc], hds, ?_⟩
      rintro rfl
      exact absurd hspace hds
    · obtain ⟨w, n, ds, rfl, -, hw, hds, hn⟩ := ih hcs hspace
      exact ⟨c :: w, n, ds, by simp, by simp, by simp [hc, hw], hds, hn⟩

/-- What ends the words of a text: nothing that a word may go on with. The reader stops there with
its cursor moved on, and has passed a line break or not. -/
def EndsPlain (limit : Int) (e : List Char) (broken : Bool) (after : Mark → Cursor) : Prop :=
  StopsPlain e ∧ ∀ m,
    (e.head?.all fun x => !(isBlank x || isBreak x)) = true ∧ broken = false ∧ after m = ⟨e, m⟩ ∨
    (e.head?.all fun x => !(isBlank x || isBreak x)) = false ∧
      ∃ gap, readGap limit false ⟨e, m⟩ = .ok (gap, after m) ∧ gap.broken = broken ∧
        (after m).mark.column < limit

lemma Style.hasIndicator_append {atWord : Bool} (h : Style.hasIndicator atWord (w ++ cs) = false)
    (hw : w ≠ []) : ∃ atWord', (atWord' = true ↔ ∃ c ∈ w.getLast?, isBlank c || isBreak c) ∧
      Style.hasIndicator atWord' cs = false := by
  induction w generalizing atWord with
  | nil => exact absurd rfl hw
  | cons x w ih =>
    simp only [List.cons_append, Style.hasIndicator, Bool.or_eq_false_iff] at h
    cases w with
    | nil => exact ⟨_, by simp, h.2⟩
    | cons y w =>
      obtain ⟨b, hb, hcs⟩ := ih h.2 (by simp)
      exact ⟨b, by simpa using hb, hcs⟩

variable {after : Mark → Cursor} {broken : Bool} {start stop : Mark} {gap : Gap} {done : List Char}

/-- Behind a word and the spaces after it, the reader is at another text. -/
lemma IsWords.tail {n : Nat} (h : IsWords (w ++ (spaces (n + 1) ++ cs)))
    (hhead : cs.head? ≠ some ' ') : IsWords cs where
  ne_nil := by
    rintro rfl
    refine h.last ?_
    simp [spaces, List.replicate_succ']
  shown := fun c hc => h.shown c (by simp [hc])
  isLine := fun c hc => h.isLine c (by simp [hc])
  head := hhead
  last := by
    intro hlast
    refine h.last ?_
    rw [List.getLast?_append, List.getLast?_append, hlast]
    rfl
  indicator := by
    have hindicator := h.indicator
    rw [← List.append_assoc] at hindicator
    obtain ⟨b, hb, hcs⟩ := Style.hasIndicator_append hindicator (by simp [spaces])
    rwa [hb.2 ⟨' ', by simp [spaces, List.replicate_succ'], rfl⟩] at hcs

lemma IsWords.beginsWord (h : IsWords cs) (e : List Char) : BeginsWord (cs ++ e) := by
  obtain ⟨c, cs, rfl⟩ := List.exists_cons_of_ne_nil h.ne_nil
  rintro x ⟨⟩
  have hshown := h.shown c List.mem_cons_self
  have hblank : isBlank c = false := by
    have hspace : c ≠ ' ' := by simpa using h.head
    simp [isBlank, hspace, ne_tab_of_isShown hshown]
  simp [hblank, h.isLine c List.mem_cons_self]

/-- A text begins with a word, and goes on behind some spaces unless it is that word alone. -/
lemma IsWords.exists_word (h : IsWords cs) : ∃ w n ds, cs = w ++ (spaces n ++ ds) ∧ w ≠ [] ∧
    (∀ c ∈ w, isBlank c = false ∧ isBreak c = false) ∧ ds.head? ≠ some ' ' ∧ (n = 0 → ds = []) := by
  obtain ⟨w, n, ds, rfl, hne, hspace, hds, hn⟩ := Yaml.exists_word h.ne_nil h.head
  refine ⟨w, n, ds, rfl, hne, fun c hc => ?_, hds, hn⟩
  have hnot : c ≠ ' ' := by
    rintro rfl
    exact hspace hc
  exact ⟨by simp [isBlank, hnot, ne_tab_of_isShown (h.shown c (by simp [hc]))],
    h.isLine c (by simp [hc])⟩

/-- One word, up to the end of the text or to a gap. -/
lemma readPlainWords_word {fuel : Nat} (hcs : IsWords (w ++ cs)) (hne : w ≠ [])
    (hw : ∀ c ∈ w, isBlank c = false ∧ isBreak c = false) (hstop : StopsPlain (cs ++ e))
    (hmark : ((Cursor.mk (w ++ (cs ++ e)) m).atDocumentMark '-' ||
      (Cursor.mk (w ++ (cs ++ e)) m).atDocumentMark '.') = false) :
    readPlainWords false limit start (fuel + 1) done gap stop ⟨w ++ (cs ++ e), m⟩ =
      if (cs ++ e).head?.all fun x => !(isBlank x || isBreak x) then
        .ok (w.reverse ++ gap.text.reverse ++ done, m.right w.length, false,
          ⟨cs ++ e, m.right w.length⟩)
      else
        match readGap limit false ⟨cs ++ e, m.right w.length⟩ with
        | .error m => .error (.within .plainScalar start .tabViolatesIndentation m)
        | .ok (gap', c) =>
          if c.mark.column < limit then
            .ok (w.reverse ++ gap.text.reverse ++ done, m.right w.length, gap'.broken, c)
          else
            readPlainWords false limit start fuel (w.reverse ++ gap.text.reverse ++ done) gap'
              (m.right w.length) c := by
  have hnumber : (Cursor.mk (w ++ (cs ++ e)) m).sees '#' = false := by
    obtain ⟨c, w, rfl⟩ := List.exists_cons_of_ne_nil hne
    have hindicator := hcs.indicator
    simp only [List.cons_append, Style.hasIndicator, Bool.or_eq_false_iff] at hindicator
    simpa [Cursor.sees] using hindicator.1.2
  have hword := readPlainWord_append (m := m) hw hcs.indicator hstop
  rw [readPlainWords, hmark, hnumber, if_neg (by simp)]
  rcases hgap : readGap limit false ⟨cs ++ e, m.right w.length⟩ with _ | ⟨gap', c⟩
  all_goals
    simp only [hword, hgap, List.isEmpty_eq_false_iff.2 hne, Bool.false_eq_true, if_false,
      Bool.not_false, Bool.true_and, decide_eq_true_eq]

lemma readPlainWords_text {fuel : Nat} (hfuel : cs.length < fuel) (hcs : IsWords cs)
    (he : EndsPlain limit e broken after)
    (hmark : ((Cursor.mk (cs ++ e) m).atDocumentMark '-' ||
      (Cursor.mk (cs ++ e) m).atDocumentMark '.') = false)
    (hlimit : limit ≤ m.column + 1) :
    readPlainWords false limit start fuel done gap stop ⟨cs ++ e, m⟩ =
      .ok (cs.reverse ++ gap.text.reverse ++ done, m.right cs.length, broken,
        after (m.right cs.length)) := by
  induction fuel generalizing cs m done gap stop with
  | zero => omega
  | succ fuel ih =>
    obtain ⟨w, n, ds, rfl, hne, hw, hds, hn⟩ := hcs.exists_word
    rw [List.append_assoc] at hmark ⊢
    cases n with
    | zero =>
      obtain rfl := hn rfl
      rw [show spaces 0 ++ [] = [] from rfl] at hcs hmark ⊢
      rw [readPlainWords_word hcs hne hw he.1 hmark, List.nil_append, List.append_nil]
      rcases he.2 (m.right w.length) with ⟨hahead, rfl, hafter⟩ | ⟨hahead, gap', hgap, rfl, hlt⟩
      · rw [if_pos hahead, hafter]
      · rw [hahead, hgap, if_neg Bool.false_ne_true]
        exact if_pos hlt
    | succ n =>
      have htext := hcs.tail hds
      have hgap := readGap_spaces limit (m := m.right w.length) (n + 1) (htext.beginsWord e)
      have hlength : w.length ≠ 0 := by simpa using hne
      have hcolumn : ¬ (((m.right w.length).right (n + 1)).column < limit) := by
        simp only [Mark.right]
        omega
      have hlater : ((Cursor.mk (ds ++ e) ((m.right w.length).right (n + 1))).atDocumentMark '-' ||
          (Cursor.mk (ds ++ e) ((m.right w.length).right (n + 1))).atDocumentMark '.') = false := by
        simp [Cursor.atDocumentMark, Mark.right]
      have hshorter : ds.length < fuel := by
        simp only [List.length_append] at hfuel
        omega
      have hahead : (spaces (n + 1) ++ (ds ++ e)).head?.all (fun x => !(isBlank x || isBreak x)) =
          false := rfl
      rw [readPlainWords_word hcs hne hw (.inl rfl) hmark, List.append_assoc, hahead, hgap,
        if_neg Bool.false_ne_true]
      simp only [hcolumn, if_false]
      rw [ih hshorter htext hlater (by simp only [Mark.right]; omega)]
      simp [Mark.right_right, Gap.text, spaces, Nat.add_assoc]

/-! ### Scalars -/

lemma endsPlain_colon (h : Style.endsWord rest = true) (limit : Int) :
    EndsPlain limit (':' :: rest) false fun m => ⟨':' :: rest, m⟩ :=
  ⟨.inr (.inr ⟨rfl, h⟩), fun _ => .inl ⟨rfl, rfl, rfl⟩⟩

lemma endsPlain_line (hrest : BeginsWord rest) (hk : k < limit) :
    EndsPlain limit ('\n' :: (spaces k ++ rest)) true
      fun m => ⟨rest, m.past ('\n' :: spaces k)⟩ := by
  have hstop : StopsPlain ('\n' :: (spaces k ++ rest)) := .inr (.inl rfl)
  refine ⟨hstop, fun m => .inr ⟨rfl, _,
    readGap_lines limit rfl (by decide) (isGap_spaces k) hrest, rfl, ?_⟩⟩
  have hcolumn := Mark.column_over_break m [] (c := '\n') rfl (isLine_spaces k)
  rw [List.nil_append, spaces, List.length_replicate] at hcolumn
  rw [spaces, hcolumn]
  exact hk

/-- No plain text begins like the mark of a document. -/
lemma IsPlain.not_atDocumentMark (h : IsPlain cs) {x : Char} (hx : x ≠ '-' ∧ x ≠ '.') :
    ((Cursor.mk (cs ++ x :: e) m).atDocumentMark '-' ||
      (Cursor.mk (cs ++ x :: e) m).atDocumentMark '.') = false := by
  have hbegins := h.begins
  simp only [Style.beginsIndicator, Bool.or_eq_false_iff, beq_eq_false_iff_ne] at hbegins
  have htake : ∀ y, (y = '-' ∨ y = '.') → (cs ++ x :: e).take 3 ≠ [y, y, y] := by
    intro y hy htake
    have hne : x ≠ y := by
      rintro rfl
      exact hy.elim hx.1 hx.2
    match cs, h.ne_nil with
    | [a], _ => simp_all
    | [a, b], _ => simp_all
    | a :: b :: c :: cs, _ =>
      rcases hy with rfl | rfl
      · exact hbegins.1.1 htake
      · exact hbegins.1.2 htake
  simp [Cursor.atDocumentMark, htake]

theorem readPlain_eq {indent : Int} (hcs : IsPlain cs)
    (he : EndsPlain (indent + 1) e broken after)
    (hmark : ((Cursor.mk (cs ++ e) m).atDocumentMark '-' ||
      (Cursor.mk (cs ++ e) m).atDocumentMark '.') = false)
    (hindent : indent ≤ m.column) : readPlain false indent ⟨cs ++ e, m⟩ =
      .ok (⟨.scalar cs true, m, m.right cs.length⟩, broken, after (m.right cs.length)) := by
  have hwords : readPlainWords false (indent + 1) m ((cs ++ e).length + 1) [] {} m ⟨cs ++ e, m⟩ =
      _ := readPlainWords_text (by rw [List.length_append]; omega) hcs.toIsWords he hmark (by omega)
  simp only [readPlain, hwords]
  simp [Gap.text]

end Depot.Yaml
