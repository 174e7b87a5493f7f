import Depot.Proofs.Yaml.Quoted

/-!
# Blocks of lines read back

A text of several lines is read as itself from a block of lines (`readBlock_literal`). The reader
takes a line and the line breaks behind it at a time; what it does with the breaks at the end is
what the hint behind the bar says.
-/

namespace Depot.Yaml

variable {cs ds rest tail : List Char} {m start stop : Mark} {n k widest : Nat}
  {breaks : List Char} {indent : Option Nat}

/-! ### Empty lines -/

/-- A line break that a block of lines keeps as it is. -/
structure Keeps (c : Char) : Prop where
  isBreak : isBreak c = true
  ne_cr : c ≠ '\r'
  text : breakText c = c

lemma readEmptyLines_break {c : Char} (hc : Keeps c) :
    readEmptyLines indent start breaks widest stop m (c :: rest) =
      readEmptyLines indent start (c :: breaks) (max widest m.column) (m.down 1) (m.down 1)
        rest := by
  have hspace : c ≠ ' ' := by
    rintro rfl
    exact absurd hc.isBreak (by decide)
  have htab : c ≠ '\t' := by
    rintro rfl
    exact absurd hc.isBreak (by decide)
  rw [readEmptyLines, if_neg (by simp [hspace]), if_neg (by simp [htab]), if_pos hc.isBreak,
    hc.text]
  intro rest' heq
  exact absurd heq hc.ne_cr

lemma readEmptyLines_breaks (hcs : ∀ c ∈ cs, Keeps c) (hm : m.column = 0) (hne : cs ≠ []) :
    readEmptyLines indent start breaks widest stop m (cs ++ rest) =
      readEmptyLines indent start (cs.reverse ++ breaks) widest (m.past cs) (m.past cs) rest := by
  induction cs generalizing breaks m stop with
  | nil => exact absurd rfl hne
  | cons c cs ih =>
    obtain ⟨hc, hcs⟩ := List.forall_mem_cons.1 hcs
    rw [List.cons_append, readEmptyLines_break hc, hm, Nat.max_zero, Mark.past_break hc.isBreak]
    by_cases hnil : cs = []
    · subst hnil
      rfl
    · rw [ih hcs rfl hnil]
      simp

lemma readEmptyLines_spaces (hinside : ∀ limit ∈ indent, m.column + k ≤ limit) :
    readEmptyLines indent start breaks widest stop m (spaces k ++ rest) =
      readEmptyLines indent start breaks widest stop (m.right k) rest := by
  induction k generalizing m with
  | zero => rfl
  | succ k ih =>
    have hspaces : spaces (k + 1) ++ rest = ' ' :: (spaces k ++ rest) := rfl
    have hall : indent.all (fun limit => m.column < limit) = true := by
      cases indent with
      | none => rfl
      | some limit =>
        have hle := hinside limit rfl
        simp only [Option.all_some, decide_eq_true_eq]
        omega
    rw [hspaces, readEmptyLines, if_pos ⟨rfl, hall⟩, ih, Mark.right_right, Nat.add_comm 1]
    · intro limit hlimit
      have hle := hinside limit hlimit
      simp only [Mark.right]
      omega
    · simp

/-- The first character that is no indentation ends the empty lines. -/
lemma readEmptyLines_end {x : Char} (hx : isBreak x = false)
    (hinside : indent.all (fun limit => m.column < limit) = true → isBlank x = false) :
    readEmptyLines indent start breaks widest stop m (x :: rest) =
      .ok (breaks.reverse, max widest m.column, stop, ⟨x :: rest, m⟩) := by
  have hspace : ¬ (x = ' ' ∧ indent.all (fun limit => m.column < limit) = true) := by
    rintro ⟨rfl, hall⟩
    exact absurd (hinside hall) (by decide)
  have htab : ¬ (x = '\t' ∧ indent.all (fun limit => m.column < limit) = true) := by
    rintro ⟨rfl, hall⟩
    exact absurd (hinside hall) (by decide)
  rw [readEmptyLines, if_neg hspace, if_neg htab, if_neg (by simp [hx])]
  rintro rest' rfl
  exact absurd hx (by decide)

/-- The empty lines in front of a line, and its indentation. -/
lemma readEmptyLines_gap {bs : List Char} (hbs : ∀ b ∈ bs, Keeps b) (hm : m.column = 0)
    (hk : ∀ limit ∈ indent, k ≤ limit) (hbreak : NotAhead isBreak rest)
    (hblank : indent.all (fun limit => k < limit) = true → NotAhead isBlank rest) :
    ∃ stop', readEmptyLines indent start [] widest stop m (bs ++ (spaces k ++ rest)) =
      .ok (bs, max widest k, stop', ⟨rest, (m.past bs).right k⟩) := by
  have hline : ∀ {breaks stop} {m : Mark}, m.column = 0 →
      readEmptyLines indent start breaks widest stop m (spaces k ++ rest) =
        .ok (breaks.reverse, max widest k, stop, ⟨rest, m.right k⟩) := by
    intro breaks stop m hm
    have hcolumn : (m.right k).column = k := by simp [Mark.right, hm]
    rw [readEmptyLines_spaces (by simpa [hm] using hk)]
    cases rest with
    | nil => rw [readEmptyLines, hcolumn]
    | cons x rest =>
      rw [readEmptyLines_end (hbreak x rfl), hcolumn]
      rw [hcolumn]
      exact fun hall => hblank hall x rfl
  by_cases hnil : bs = []
  · subst hnil
    exact ⟨stop, hline hm⟩
  · refine ⟨m.past bs, ?_⟩
    have hcolumn := Mark.column_over_breaks (m := m) (fun b hb => (hbs b hb).isBreak) hnil
    rw [readEmptyLines_breaks hbs hm hnil, hline hcolumn]
    simp

/-! ### Lines -/

/-- A text that ends in a line break and does not begin with one is a line and, behind some line
breaks, another such text. -/
lemma exists_line (hne : cs ≠ []) (hhead : NotAhead isBreak cs)
    (hlast : ∀ c ∈ cs.getLast?, isBreak c = true) : ∃ l b bs ds, cs = l ++ b :: (bs ++ ds) ∧
      l ≠ [] ∧ IsLine l ∧ isBreak b = true ∧ (∀ c ∈ bs, isBreak c = true) ∧
      NotAhead isBreak ds := by
  obtain ⟨l, r, rfl, hl, hr⟩ := exists_run (fun c => isBreak c = false) cs
  cases r with
  | nil =>
    obtain ⟨before, last, hbefore⟩ := (List.eq_nil_or_concat' _).resolve_left hne
    have hbreak := hlast last (by simp [hbefore])
    rw [List.append_nil] at hbefore
    rw [hl last (by simp [hbefore])] at hbreak
    cases hbreak
  | cons b r =>
    obtain ⟨bs, ds, rfl, hbs, hds⟩ := exists_run (fun c => isBreak c = true) r
    refine ⟨l, b, bs, ds, rfl, ?_, hl, by simpa using hr b rfl, hbs, fun c hc => ?_⟩
    · rintro rfl
      have hb := hhead b rfl
      exact hr b rfl hb
    · simpa using hds c hc

/-- The lines of a text from one on, indented, and what stands below them. -/
def linesBelow (n k : Nat) (cs tail : List Char) : List Char :=
  (if cs = [] then spaces k else spaces n ++ indentLines n false cs ++ spaces k) ++ tail

/-- A line, with the breaks and the indentation behind it. -/
lemma indentLines_line {l bs : List Char} {b : Char} (hl : IsLine l) (hb : isBreak b = true)
    (hbs : ∀ c ∈ bs, isBreak c = true) (hds : NotAhead isBreak ds) :
    indentLines n false (l ++ b :: (bs ++ ds)) ++ (spaces k ++ tail) =
      l ++ b :: (bs ++ linesBelow n k ds tail) := by
  have hbreaks : ∀ c ∈ b :: bs, isBreak c = true := List.forall_mem_cons.2 ⟨hb, hbs⟩
  rw [indentLines_append hl, ← List.cons_append, indentLines_breaks hbreaks, linesBelow]
  cases ds with
  | nil => simp [indentLines]
  | cons d ds =>
    rw [show (false || !(b :: bs).isEmpty) = true from rfl, indentLines_start (hds d rfl)]
    simp

/-- What stands below a line: the next one, or the tail with its own indentation. -/
lemma exists_linesBelow (hk : k < n) (htail : BeginsWord tail) (hcs : NotAhead isBreak cs) :
    ∃ j next, linesBelow n k cs tail = spaces j ++ next ∧ j ≤ n ∧ NotAhead isBreak next ∧
      (j < n → NotAhead isBlank next) ∧
      (cs = [] ∧ next = tail ∧ j = k ∨
        cs ≠ [] ∧ next = indentLines n false cs ++ (spaces k ++ tail) ∧ j = n) := by
  have htail' := fun c hc => Bool.or_eq_false_iff.1 (htail c hc)
  cases cs with
  | nil =>
    exact ⟨k, tail, rfl, by omega, fun c hc => (htail' c hc).2, fun _ c hc => (htail' c hc).1,
      .inl ⟨rfl, rfl, rfl⟩⟩
  | cons c cs =>
    have hc : isBreak c = false := hcs c rfl
    refine ⟨n, indentLines n false (c :: cs) ++ (spaces k ++ tail), by simp [linesBelow],
      Nat.le_refl n, ?_, by omega, .inr ⟨by simp, rfl, rfl⟩⟩
    simp [indentLines, hc, NotAhead]

/-- One line of a block, with the breaks and the indentation behind it. -/
lemma readBlockLines_line {l bs next : List Char} {b : Char} {j : Nat} (start stop : Mark)
    (fuel : Nat) (done brs : List Char) (blank : Bool) (lb : Option Char) (hm : m.column = n)
    (hl : IsLine l) (hb : Keeps b)
    (hbs : ∀ c ∈ bs, Keeps c) (hj : j ≤ n) (hbreak : NotAhead isBreak next)
    (hblank : j < n → NotAhead isBlank next) : ∃ blank' stop' m', m'.column = j ∧
      readBlockLines true n start (fuel + 1) done blank lb brs stop
          ⟨l ++ b :: (bs ++ (spaces j ++ next)), m⟩ =
        readBlockLines true n start fuel (l.reverse ++ ((lb.toList ++ brs).reverse ++ done)) blank'
          (some b) bs stop' ⟨next, m'⟩ := by
  have hspan : (Cursor.mk (l ++ b :: (bs ++ (spaces j ++ next))) m).span (fun x => !isBreak x) =
      (l, ⟨b :: (bs ++ (spaces j ++ next)), m.right l.length⟩) := by
    refine Cursor.span_append (fun c hc => by simp [hl c hc]) ?_
    rintro c ⟨⟩
    simp [hb.isBreak]
  have hread : (Cursor.mk (b :: (bs ++ (spaces j ++ next))) (m.right l.length)).readBreak? =
      some (b, ⟨bs ++ (spaces j ++ next), (m.right l.length).down 1⟩) := by
    rw [Cursor.readBreak?_cons hb.isBreak hb.ne_cr, hb.text]
  obtain ⟨stop', hempty⟩ : ∃ stop', readEmptyLines (some n) start [] 0
      ((m.right l.length).down 1) ((m.right l.length).down 1) (bs ++ (spaces j ++ next)) =
        .ok (bs, max 0 j, stop', ⟨next, (((m.right l.length).down 1).past bs).right j⟩) :=
    readEmptyLines_gap hbs rfl (by simpa using hj) hbreak (by simpa using hblank)
  have hcolumn : ((((m.right l.length).down 1).past bs).right j).column = j :=
    Mark.column_indented (fun c hc => (hbs c hc).isBreak) rfl j
  refine ⟨(l ++ b :: (bs ++ (spaces j ++ next))).head?.any isBlank, stop', _, hcolumn, ?_⟩
  rw [readBlockLines, if_neg (by simp [hm])]
  simp only [hspan, hread, hempty, joinLines]
  rfl

lemma readBlockLines_text {r : List Char} {c : Cursor} (start stop : Mark) (fuel : Nat)
    (done : List Char) (blank : Bool) (lb : Option Char) (brs : List Char) (hk : k < n)
    (htail : BeginsWord tail) (hfuel : r.length < fuel)
    (hkeeps : ∀ c ∈ r, isBreak c = true → Keeps c) (hhead : NotAhead isBreak r)
    (hlast : ∀ c ∈ r.getLast?, isBreak c = true)
    (hpending : ∀ c ∈ lb.toList ++ brs, isBreak c = true)
    (hc : r = [] ∧ c.rest = tail ∧ c.mark.column = k ∨
      r ≠ [] ∧ c.rest = indentLines n false r ++ (spaces k ++ tail) ∧ c.mark.column = n) :
    ∃ done' lb' brs' stop' m', readBlockLines true n start fuel done blank lb brs stop c =
        .ok (done', lb', brs', stop', ⟨tail, m'⟩) ∧ m'.column = k ∧
      done'.reverse ++ (lb'.toList ++ brs') = done.reverse ++ (lb.toList ++ brs) ++ r ∧
      (∀ c ∈ lb'.toList ++ brs', isBreak c = true) ∧ (lb' = none → lb = none ∧ done' = done) := by
  obtain ⟨rest, m⟩ := c
  induction fuel generalizing r done brs blank lb stop rest m with
  | zero => omega
  | succ fuel ih =>
    rcases hc with ⟨rfl, rfl, hcolumn⟩ | ⟨hne, hrest, hcolumn⟩
    · have hstop : m.column ≠ n := by
        simp only at hcolumn
        omega
      refine ⟨done, lb, brs, stop, m, ?_, hcolumn, by simp, hpending, fun h => ⟨h, rfl⟩⟩
      rw [readBlockLines, if_pos (.inl hstop)]
    · obtain ⟨l, b, bs, ds, rfl, hl, hline, hb, hbs, hds⟩ := exists_line hne hhead hlast
      have hb' : Keeps b := hkeeps b (by simp) hb
      have hbs' : ∀ c ∈ bs, Keeps c := fun c hc => hkeeps c (by simp [hc]) (hbs c hc)
      obtain ⟨j, next, hbelow, hj, hbreak, hblank, hnext⟩ := exists_linesBelow hk htail hds
      obtain ⟨blank', stop', m', hm', hstep⟩ := readBlockLines_line start stop fuel done brs blank
        lb hcolumn hline hb' hbs' hj hbreak hblank
      obtain rfl : rest = _ := hrest
      rw [indentLines_line hline hb hbs hds, hbelow, hstep]
      have hshorter : ds.length < fuel := by
        simp only [List.length_append, List.length_cons] at hfuel
        omega
      have hlast' : ∀ c ∈ ds.getLast?, isBreak c = true := by
        intro c hc
        refine hlast c ?_
        rw [List.append_cons, ← List.append_assoc, List.getLast?_append, hc]
        rfl
      obtain ⟨done', lb', brs', stop'', m'', hlines, hcolumn', htext, hbreaks, hnone⟩ :=
        ih stop' (l.reverse ++ ((lb.toList ++ brs).reverse ++ done)) blank' (some b) bs hshorter
          (fun c hc => hkeeps c (by simp [hc])) hds hlast'
          (List.forall_mem_cons.2 ⟨hb, hbs⟩) next m' (by simpa [hm'] using hnext)
      refine ⟨done', lb', brs', stop'', m'', hlines, hcolumn', ?_, hbreaks, fun h => ?_⟩
      · rw [htext]
        simp
      · exact absurd (hnone h).1 (by simp)

/-! ### Hints -/

/-- The hint of what becomes of the line breaks at the end. -/
def Chomp.hint : Chomp → List Char
  | .strip => ['-']
  | .clip => []
  | .keep => ['+']

/-- What becomes of the line breaks at the end of a block with a text. -/
def chompOf (cs : List Char) : Chomp :=
  match cs.reverse with
  | [] => .strip
  | c :: before =>
    if !isBreak c then .strip else if before.head?.all isBreak then .keep else .clip

/-- Whether the first line of a text does not show the indentation. -/
def hidesIndentation (cs : List Char) : Bool :=
  cs.head?.any fun c => Style.isSpace c || isBreak c

lemma literalHints_eq (cs : List Char) : literalHints cs =
    (if hidesIndentation cs then ['2'] else []) ++ (chompOf cs).hint := by
  unfold literalHints chompOf hidesIndentation
  cases cs.reverse with
  | nil => rfl
  | cons c before =>
    dsimp only
    congr 1
    cases isBreak c with
    | false => rfl
    | true => cases before.head?.all isBreak <;> rfl

lemma readIndicators_eq (start : Mark) (cs rest : List Char) (m : Mark) :
    readIndicators start ⟨literalHints cs ++ '\n' :: rest, m⟩ =
      .ok (chompOf cs, if hidesIndentation cs then some 2 else none,
        ⟨'\n' :: rest, m.right (literalHints cs).length⟩) := by
  rw [literalHints_eq]
  cases hidesIndentation cs <;> cases chompOf cs <;> rfl

/-- What a hint keeps of the break behind the last line and of those of the empty lines below. -/
def Chomp.kept (lb : Option Char) (brs : List Char) : Chomp → List Char
  | .strip => []
  | .clip => lb.toList
  | .keep => lb.toList ++ brs

lemma chompOf_concat (before : List Char) (c : Char) : chompOf (before ++ [c]) =
    if !isBreak c then .strip else if before.getLast?.all isBreak then .keep else .clip := by
  have hreverse : (before ++ [c]).reverse = c :: before.reverse := by simp
  simp only [chompOf, hreverse, List.head?_reverse]

/-- A text that ends in one break after a line ends with the break behind that line, and there are
no empty lines. -/
lemma eq_of_append_eq_concat {D brs before : List Char} {lb : Option Char} {d x : Char}
    (htext : D ++ (lb.toList ++ brs) = before ++ [d] ++ [x]) (hd : isBreak d = false)
    (hbreaks : ∀ c ∈ lb.toList ++ brs, isBreak c = true) (hnone : lb = none → D = []) :
    D = before ++ [d] ∧ lb = some x ∧ brs = [] := by
  have hmem : d ∉ lb.toList ++ brs := fun hmem => by
    rw [hbreaks d hmem] at hd
    cases hd
  cases lb with
  | none =>
    obtain rfl := hnone rfl
    have hbrs : brs = before ++ [d] ++ [x] := htext
    exact absurd (by simp [hbrs]) hmem
  | some b =>
    obtain rfl | ⟨init, y, rfl⟩ := List.eq_nil_or_concat' brs
    · obtain ⟨hD, hb⟩ := List.append_inj' htext rfl
      obtain rfl : b = x := by simpa using hb
      exact ⟨hD, rfl, rfl⟩
    · -- Otherwise the character before the last one would be among the breaks.
      have hsplit : D ++ b :: init ++ [y] = before ++ [d] ++ [x] := by simpa using htext
      obtain ⟨hinit, -⟩ := List.append_inj' hsplit rfl
      obtain ⟨init', z, hz⟩ := (List.eq_nil_or_concat' (b :: init)).resolve_left (by simp)
      rw [hz, ← List.append_assoc] at hinit
      obtain rfl : z = d := by simpa using (List.append_inj' hinit rfl).2
      have hmem' : z ∈ b :: init := by simp [hz]
      exact absurd (by simpa using List.mem_append_left [y] hmem') hmem

/-- The text with the breaks at its end as the hint says. -/
lemma append_kept {D brs : List Char} {lb : Option Char} (hne : cs ≠ [])
    (htext : D ++ (lb.toList ++ brs) = endLine cs)
    (hbreaks : ∀ c ∈ lb.toList ++ brs, isBreak c = true) (hnone : lb = none → D = []) :
    D ++ (chompOf cs).kept lb brs = cs := by
  obtain ⟨before, c, rfl⟩ := (List.eq_nil_or_concat' cs).resolve_left hne
  rw [chompOf_concat]
  cases hc : isBreak c with
  | false =>
    rw [show endLine (before ++ [c]) = before ++ [c] ++ ['\n'] by simp [endLine, hc]] at htext
    obtain ⟨rfl, -, -⟩ := eq_of_append_eq_concat htext hc hbreaks hnone
    exact List.append_nil _
  | true =>
    rw [show endLine (before ++ [c]) = before ++ [c] by simp [endLine, hc]] at htext
    obtain rfl | ⟨before, d, rfl⟩ := List.eq_nil_or_concat' before
    · exact htext
    · rw [List.getLast?_concat, Option.all_some]
      cases hd : isBreak d with
      | true => exact htext
      | false =>
        obtain ⟨rfl, rfl, rfl⟩ := eq_of_append_eq_concat htext hd hbreaks hnone
        rfl

/-! ### Blocks -/

lemma keeps_of_isShown {c : Char} (hshown : Style.isShown c = true) (hbreak : isBreak c = true) :
    Keeps c := by
  simp only [isBreak, Bool.or_eq_true, beq_iff_eq] at hbreak
  rcases hbreak with (((rfl | rfl) | rfl) | rfl) | rfl
  · exact ⟨rfl, by decide, rfl⟩
  · exact absurd hshown (by decide)
  · exact absurd hshown (by decide)
  · exact ⟨rfl, by decide, rfl⟩
  · exact ⟨rfl, by decide, rfl⟩

lemma isShown_of_mem_endLine (hcs : ∀ c ∈ cs, Style.isShown c = true) :
    ∀ c ∈ endLine cs, Style.isShown c = true := by
  unfold endLine
  split
  · exact hcs
  · exact List.forall_mem_append.2 ⟨hcs, List.all_eq_true.1 rfl⟩

lemma isShown_of_allowsLiteral (hcs : Style.allowsLiteral cs = true) :
    ∀ c ∈ cs, Style.isShown c = true := by
  simp only [Style.allowsLiteral, Style.needsEscapes, Bool.and_eq_true, Bool.not_eq_true',
    Bool.or_eq_false_iff, List.any_eq_false] at hcs
  exact fun c hc => by simpa using hcs.1.1 c hc

lemma getLast?_indentLines (n : Nat) (atStart : Bool) (cs : List Char) :
    (indentLines n atStart cs).getLast? = cs.getLast? := by
  induction cs generalizing atStart with
  | nil => rfl
  | cons c cs ih =>
    rw [indentLines]
    split
    · rw [List.getLast?_cons, List.getLast?_cons, ih]
    · rw [List.getLast?_append, List.getLast?_cons, List.getLast?_cons, ih]
      simp

lemma indentLines_endLine (n : Nat) (atStart : Bool) (cs : List Char) :
    endLine (indentLines n atStart cs) = indentLines n atStart (endLine cs) := by
  have hconcat : ∀ {cs : List Char} (atStart : Bool),
      indentLines n atStart (cs ++ ['\n']) = indentLines n atStart cs ++ ['\n'] := by
    intro cs
    induction cs with
    | nil => exact fun _ => rfl
    | cons c cs ih =>
      intro atStart
      simp only [List.cons_append, indentLines, ih]
      split <;> simp
  unfold endLine
  rw [getLast?_indentLines]
  split
  · rfl
  · rw [hconcat]

lemma endLine_append (hne : ds ≠ []) (cs : List Char) : endLine (cs ++ ds) = cs ++ endLine ds := by
  have hlast : (cs ++ ds).getLast? = ds.getLast? := by
    rw [List.getLast?_append]
    cases hds : ds.getLast? with
    | none => exact absurd (List.getLast?_eq_none_iff.1 hds) hne
    | some _ => rfl
  unfold endLine
  rw [hlast]
  split
  · rfl
  · rw [List.append_assoc]

lemma isBreak_getLast?_endLine (cs : List Char) :
    ∀ c ∈ (endLine cs).getLast?, isBreak c = true := by
  intro c hc
  unfold endLine at hc
  split at hc
  next hlast =>
    rw [Option.mem_def.1 hc] at hlast
    exact hlast
  next =>
    rw [List.getLast?_concat] at hc
    obtain rfl : '\n' = c := Option.some.inj hc
    rfl

/-- The lines of a text behind the bar and its hints. -/
lemma endLine_literal (hne : cs ≠ []) (n : Nat) :
    endLine ('|' :: literalHints cs ++ '\n' :: indentLines n true cs) =
      '|' :: (literalHints cs ++ '\n' :: indentLines n true (endLine cs)) := by
  have hsplit : '|' :: literalHints cs ++ '\n' :: indentLines n true cs =
      ('|' :: literalHints cs ++ ['\n']) ++ indentLines n true cs := by simp
  have hindented : indentLines n true cs ≠ [] := by
    intro hnil
    have hlength := length_le_indentLines n true cs
    rw [hnil, List.length_nil, Nat.le_zero, List.length_eq_zero_iff] at hlength
    exact hne hlength
  rw [hsplit, endLine_append hindented, indentLines_endLine]
  simp

/-- How the lines of a text begin in a block above a tail: some line breaks, an indentation of `j`
columns, and what stands there, which is a line of the text unless that has none. -/
structure Opens (n k : Nat) (cs tail bs ds : List Char) (j : Nat) (next : List Char) : Prop where
  text : endLine cs = bs ++ ds
  breaks : ∀ b ∈ bs, isBreak b = true
  notAhead : NotAhead isBreak ds
  lines : indentLines n true (endLine cs) ++ (spaces k ++ tail) = bs ++ (spaces j ++ next)
  le : j ≤ n
  next_notBreak : NotAhead isBreak next
  next_notBlank : j < n → NotAhead isBlank next
  next_eq : ds = [] ∧ next = tail ∧ j = k ∨
    ds ≠ [] ∧ next = indentLines n false ds ++ (spaces k ++ tail) ∧ j = n

lemma exists_opens (cs : List Char) (hk : k < n) (htail : BeginsWord tail) :
    ∃ bs ds j next, Opens n k cs tail bs ds j next := by
  obtain ⟨bs, ds, htext, hbs, hds⟩ := exists_run (fun c => isBreak c = true) (endLine cs)
  have hds' : NotAhead isBreak ds := fun c hc => by simpa using hds c hc
  obtain ⟨j, next, hbelow, hj, hbreak, hblank, hnext⟩ := exists_linesBelow hk htail hds'
  refine ⟨bs, ds, j, next, htext, hbs, hds', ?_, hj, hbreak, hblank, hnext⟩
  rw [htext, indentLines_breaks hbs, ← hbelow, linesBelow, Bool.true_or, List.append_assoc]
  cases ds with
  | nil => simp [indentLines]
  | cons x ds => simp [indentLines_start (hds' x rfl)]

namespace Opens

variable {bs next : List Char} {j i : Nat}

/-- A text that shows the indentation has it in front of its first character. -/
lemma of_not_hidesIndentation (h : Opens n k cs tail bs ds j next) (hne : cs ≠ [])
    (hcs : ∀ c ∈ cs, Style.isShown c = true) (hhides : hidesIndentation cs = false) :
    j = n ∧ NotAhead isBlank next := by
  obtain ⟨c, cs, rfl⟩ := List.exists_cons_of_ne_nil hne
  simp only [hidesIndentation, List.head?_cons, Option.any_some, Bool.or_eq_false_iff,
    Style.isSpace, beq_eq_false_iff_ne] at hhides
  obtain ⟨hspace, hbreak⟩ := hhides
  obtain ⟨l, hl⟩ : ∃ l, endLine (c :: cs) = c :: l := by
    unfold endLine
    split
    · exact ⟨_, rfl⟩
    · exact ⟨_, List.cons_append⟩
  have htext := h.text
  rw [hl] at htext
  cases bs with
  | cons b bs =>
    rw [List.cons_append, List.cons.injEq] at htext
    rw [htext.1, h.breaks b (by simp)] at hbreak
    cases hbreak
  | nil =>
    obtain rfl : c :: l = ds := htext
    obtain ⟨hnil, -⟩ | ⟨-, rfl, rfl⟩ := h.next_eq
    · cases hnil
    · have hblank : isBlank c = false := by
        simp [isBlank, hspace, ne_tab_of_isShown (hcs c (by simp))]
      refine ⟨rfl, ?_⟩
      simpa [indentLines, hbreak, NotAhead] using hblank

/-- The empty lines at the front are read, and with them the indentation of the first line, which
the header tells where the line does not show it. -/
lemma readEmptyLines_eq (h : Opens (i + 2) k cs tail bs ds j next) (hne : cs ≠ [])
    (hcs : ∀ c ∈ cs, Style.isShown c = true) (hm : m.column = 0) :
    let known := if hidesIndentation cs then some (i + 2) else none
    (∃ stop', readEmptyLines known start [] 0 stop m (bs ++ (spaces j ++ next)) =
      .ok (bs, j, stop', ⟨next, (m.past bs).right j⟩)) ∧
    known.getD (max j (i + 1)) = i + 2 := by
  have hkeeps : ∀ b ∈ bs, Keeps b := fun b hb =>
    keeps_of_isShown (isShown_of_mem_endLine hcs b (by simp [h.text, hb])) (h.breaks b hb)
  have hwidest : max 0 j = j := Nat.zero_max j
  cases hhides : hidesIndentation cs with
  | true =>
    rw [← hwidest]
    exact ⟨readEmptyLines_gap hkeeps hm (by simpa using h.le) h.next_notBreak
      (by simpa using h.next_notBlank), rfl⟩
  | false =>
    obtain ⟨rfl, hblank⟩ := h.of_not_hidesIndentation hne hcs hhides
    rw [← hwidest]
    exact ⟨readEmptyLines_gap hkeeps hm nofun h.next_notBreak fun _ => hblank, by simp⟩

/-- The lines are read, up to the tail. -/
lemma readBlockLines_eq (h : Opens n k cs tail bs ds j next)
    (hcs : ∀ c ∈ cs, Style.isShown c = true) (hk : k < n) (htail : BeginsWord tail)
    (hm : m.column = 0) (start stop : Mark) :
    ∃ done lb brs stop' m', readBlockLines true n start (next.length + 1) [] false none bs stop
        ⟨next, (m.past bs).right j⟩ = .ok (done, lb, brs, stop', ⟨tail, m'⟩) ∧ m'.column = k ∧
      done.reverse ++ (lb.toList ++ brs) = endLine cs ∧
      (∀ c ∈ lb.toList ++ brs, isBreak c = true) ∧ (lb = none → done.reverse = []) := by
  have hkeeps : ∀ c ∈ ds, isBreak c = true → Keeps c := fun c hc =>
    keeps_of_isShown (isShown_of_mem_endLine hcs c (by simp [h.text, hc]))
  have hlast : ∀ c ∈ ds.getLast?, isBreak c = true := by
    intro c hc
    refine isBreak_getLast?_endLine cs c ?_
    rw [h.text, List.getLast?_append, hc]
    rfl
  have hfuel : ds.length < next.length + 1 := by
    rcases h.next_eq with ⟨rfl, -⟩ | ⟨-, rfl, -⟩
    · simp
    · have hlength := length_le_indentLines n false ds
      simp only [List.length_append]
      omega
  have hnext := h.next_eq
  rw [← Mark.column_indented h.breaks hm j] at hnext
  obtain ⟨done, lb, brs, stop', m', hread, hm', hdone, hpending, hnone⟩ :=
    readBlockLines_text start stop (next.length + 1) [] false none bs
      (c := ⟨next, (m.past bs).right j⟩) hk htail hfuel hkeeps h.notAhead hlast h.breaks hnext
  refine ⟨done, lb, brs, stop', m', hread, hm', hdone.trans h.text.symm, hpending, fun hlb => ?_⟩
  rw [(hnone hlb).2, List.reverse_nil]

end Opens

/-- A block is what its header says of the empty lines and the lines below it. -/
lemma readBlock_eq {i : Nat} {behind bs done brs : List Char} {j : Nat} {lb : Option Char}
    {stop' : Mark} {c after : Cursor}
    (hempty : readEmptyLines (if hidesIndentation cs then some (i + 2) else none) m [] 0
      (((m.right 1).right (literalHints cs).length).down 1)
      (((m.right 1).right (literalHints cs).length).down 1) behind = .ok (bs, j, stop, c))
    (hcolumn : (if hidesIndentation cs then some (i + 2) else none).getD (max j (i + 1)) = n)
    (hlines : readBlockLines true n m (c.rest.length + 1) [] false none bs stop c =
      .ok (done, lb, brs, stop', after)) :
    readBlock true i ⟨'|' :: (literalHints cs ++ '\n' :: behind), m⟩ =
      .ok (⟨.scalar (done.reverse ++ (chompOf cs).kept lb brs) false, m, stop'⟩, after) := by
  have hblanks : ∀ rest m, (Cursor.mk ('\n' :: rest) m).skipBlanks = ⟨'\n' :: rest, m⟩ :=
    fun _ _ => rfl
  have hsees : ∀ rest m, (Cursor.mk ('\n' :: rest) m).sees '#' = false := fun _ _ => rfl
  have hend : ∀ rest m, (Cursor.mk ('\n' :: rest) m).atLineEnd = true := fun _ _ => rfl
  have hdown : ∀ rest m, (Cursor.mk ('\n' :: rest) m).skipBreak = ⟨rest, m.down 1⟩ :=
    fun _ _ => rfl
  have hknown : (if hidesIndentation cs then some 2 else none).map
      (fun n => (max (i : Int) 0).toNat + n) =
        if hidesIndentation cs then some (i + 2) else none := by
    cases hidesIndentation cs <;> simp
  have hwidest : max j (max ((i : Int) + 1).toNat 1) = max j (i + 1) := by omega
  rw [readBlock, Cursor.skip_one]
  simp only [readIndicators_eq, bind, Except.bind, pure, Except.pure, hblanks, hknown, hsees, hend,
    hdown, hempty, hwidest, hcolumn, hlines, Bool.not_true, Bool.false_eq_true, if_false]
  cases chompOf cs <;> rfl

/-- A text of several lines is read back from the block in which it is written. -/
theorem readBlock_literal {i : Nat} (hcs : Style.allowsLiteral cs = true) (hne : cs ≠ [])
    (hk : k ≤ i) (htail : BeginsWord tail) : ∃ stop m',
    readBlock true i ⟨endLine ('|' :: literalHints cs ++ '\n' :: indentLines (i + 2) true cs) ++
        (spaces k ++ tail), m⟩ = .ok (⟨.scalar cs false, m, stop⟩, ⟨tail, m'⟩) ∧
      m'.column = k := by
  have hshown := isShown_of_allowsLiteral hcs
  have hdeeper : k < i + 2 := by omega
  obtain ⟨bs, ds, j, next, hopens⟩ := exists_opens cs hdeeper htail
  -- The lines begin below the header, at the start of a line.
  have hm : (((m.right 1).right (literalHints cs).length).down 1).column = 0 := rfl
  obtain ⟨⟨stop, hempty⟩, hcolumn⟩ := hopens.readEmptyLines_eq hne hshown hm
  obtain ⟨done, lb, brs, stop', m', hlines, hm', htext, hbreaks, hnone⟩ :=
    hopens.readBlockLines_eq hshown hdeeper htail hm m stop
  have hread := readBlock_eq hempty hcolumn hlines
  rw [append_kept hne htext hbreaks hnone] at hread
  refine ⟨stop', m', ?_, hm'⟩
  rw [endLine_literal hne, List.cons_append, List.append_assoc, List.cons_append, hopens.lines]
  exact hread

end Depot.Yaml
