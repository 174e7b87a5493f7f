import Depot.Proofs.Yaml.Spelling
import Depot.Proofs.Yaml.Stream
import Mathlib.Logic.Relation

/-!
# Places in a block

Where the scanner is between two tokens of a text in block style, and what the next step does there.
A place is reached (`Reaches`) when the next step begins at it, whatever gap is in front of it and
whatever pending keys are given up on the way.
-/

namespace Depot.Yaml

namespace Scan

variable {s t : Scan} {b : Bool} {ws : List Word} {i : Int} {is : List Int} {k : Nat}
  {rest tail gap : List Char}

/-! ### Steps -/

/-- A step that takes a part of the text. -/
def Fetches (s t : Scan) : Prop :=
  s.fetch = .ok t ∧ t.cursor.rest.length < s.cursor.rest.length

/-- Steps that take parts of the text. -/
abbrev Steps : Scan → Scan → Prop :=
  Relation.ReflTransGen Fetches

lemma Runs.of_steps {n : Nat} {q : List Token} (h : Steps s t) (hr : Runs n t q) :
    ∃ n', Runs n' s q := by
  induction h using Relation.ReflTransGen.head_induction_on with
  | refl => exact ⟨n, hr⟩
  | head hfetch _ ih =>
    obtain ⟨n', hr'⟩ := ih
    have hle := hr'.le
    have hlt := hfetch.2
    exact ⟨n' + 1, .step hfetch.1 (by omega) hr'⟩

/-! ### Places -/

/-- The words that were taken, the indentations of the open blocks and the text in front of the
cursor, outside brackets and braces and without a pending key. -/
def Stands (s : Scan) (b : Bool) (ws : List Word) (i : Int) (is : List Int) (k : Nat)
    (rest : List Char) : Prop :=
  ∃ q m, q.map Token.word = ws ∧ m.column = k ∧
    s = { cursor := ⟨rest, m⟩, queue := q, indent := i, indents := is, keyAllowed := b }

/-- The next step begins at a place. -/
def Reaches (s : Scan) (b : Bool) (ws : List Word) (i : Int) (is : List Int) (k : Nat)
    (rest : List Char) : Prop :=
  ∃ t : Scan, t.Stands b ws i is k rest ∧ rest.length ≤ s.cursor.rest.length ∧
    s.fetch = (t.unroll k).dispatch

lemma unroll_of_le {column : Int} (h : s.indent ≤ column) : s.unroll column = s := by
  have hclose : unroll.close column s.indent s.indents = (0, s.indent, s.indents) := by
    cases s.indents with
    | nil => rfl
    | cons j is => rw [unroll.close, if_neg (by omega)]
  unfold unroll
  split
  · rfl
  · simp [hclose]

/-- At a place in a block, the step takes what begins there. -/
lemma Reaches.fetch_eq (h : Reaches s b ws i is k rest) (hi : i ≤ k) :
    ∃ t : Scan, t.Stands b ws i is k rest ∧ rest.length ≤ s.cursor.rest.length ∧
      s.fetch = t.dispatch := by
  obtain ⟨t, ht, hlength, hfetch⟩ := h
  refine ⟨t, ht, hlength, ?_⟩
  obtain ⟨q, m, -, -, rfl⟩ := ht
  rw [hfetch, unroll_of_le hi]

/-- A block ends in front of a place that is not as far to the right. -/
lemma Reaches.close {c : Nat} (h : Reaches s b ws c (i :: is) k rest) (hk : k < c) :
    Reaches s b (ws ++ [.blockEnd]) i is k rest := by
  obtain ⟨t, ⟨q, m, hq, hm, rfl⟩, hlength, hfetch⟩ := h
  refine ⟨_, ⟨q ++ [⟨.blockEnd, m, m⟩], m, by simp [hq], hm, rfl⟩, hlength, ?_⟩
  have hlt : (k : Int) < c := by omega
  rw [hfetch]
  simp [unroll, inFlow, unroll.close, hlt, mark, List.replicate_succ]

/-! ### Gaps -/

/-- The spaces at the front of a line are passed, and a line break behind them as well. -/
lemma toNextToken_spaces {fuel n : Nat} {m : Mark} (inFlow b : Bool)
    (hrest : ∀ c ∈ rest.head?, isBlank c = false ∧ c ≠ '#' ∧ c ≠ '\ufeff') :
    toNextToken inFlow (fuel + 1) b ⟨spaces n ++ rest, m⟩ =
      match (Cursor.mk rest (m.right n)).readBreak? with
      | some (_, c) => toNextToken inFlow fuel (b || !inFlow) c
      | none => (b, ⟨rest, m.right n⟩) := by
  have hbom : (Cursor.mk (spaces n ++ rest) m).sees '\ufeff' = false := by
    refine Cursor.sees_eq_false ?_
    cases n with
    | zero => exact fun h => (hrest _ h).2.2 rfl
    | succ n => simp [spaces, List.replicate_succ]
  have hskip : (Cursor.mk (spaces n ++ rest) m).skipWhile
      (fun x => x == ' ' || ((inFlow || !b) && x == '\t')) = ⟨rest, m.right n⟩ := by
    rw [Cursor.skipWhile_append, length_spaces]
    · intro c hc
      rw [List.eq_of_mem_replicate hc]
      rfl
    · intro c hc
      have hblank := (hrest c hc).1
      simp only [isBlank, Bool.or_eq_false_iff] at hblank
      simp [hblank]
  have hcomment : (Cursor.mk rest (m.right n)).sees '#' = false :=
    Cursor.sees_eq_false fun h => (hrest _ h).2.1 rfl
  rcases hbreak : (Cursor.mk rest (m.right n)).readBreak? with _ | ⟨x, c⟩
  all_goals
    simp only [toNextToken, hbom, Bool.and_false, Bool.false_eq_true, if_false, hskip, hcomment,
      hbreak]

lemma toNextToken_gap {fuel : Nat} {m : Mark} (inFlow : Bool) (hfuel : gap.length < fuel)
    (hgap : ∀ c ∈ gap, c = ' ' ∨ c = '\n') (htail : BeginsToken tail) :
    toNextToken inFlow fuel b ⟨gap ++ tail, m⟩ =
      (b || (!inFlow && gap.contains '\n'), ⟨tail, m.past gap⟩) := by
  induction fuel generalizing gap b m with
  | zero => omega
  | succ fuel ih =>
    obtain ⟨n, ds, rfl, hds⟩ := exists_spaces gap
    obtain ⟨-, hgap⟩ := List.forall_mem_append.1 hgap
    rw [List.append_assoc]
    cases ds with
    | nil =>
      have hhead : ∀ c ∈ tail.head?, isBlank c = false ∧ isBreak c = false ∧ c ≠ '#' ∧
          c ≠ '\ufeff' := by
        intro c hc
        have hc' := htail c hc
        simp only [Bool.or_eq_false_iff, beq_eq_false_iff_ne] at hc'
        exact ⟨hc'.1.1.1, hc'.1.1.2, hc'.1.2, hc'.2⟩
      have hnone : (spaces n).contains '\n' = false := by simp [spaces]
      rw [List.nil_append, List.append_nil, toNextToken_spaces inFlow b fun c hc =>
          ⟨(hhead c hc).1, (hhead c hc).2.2⟩,
        Cursor.readBreak?_of_notAhead fun c hc => (hhead c hc).2.1, hnone, Mark.past_spaces,
        Bool.and_false, Bool.or_false]
    | cons c ds =>
      obtain rfl : c = '\n' := (hgap c List.mem_cons_self).resolve_left (by simpa using hds)
      have hshorter : ds.length < fuel := by
        simp only [List.length_append, List.length_cons] at hfuel
        omega
      rw [toNextToken_spaces inFlow b (by rintro c ⟨⟩; decide)]
      change toNextToken inFlow fuel (b || !inFlow) ⟨ds ++ tail, (m.right n).down 1⟩ = _
      rw [ih hshorter fun c hc => hgap c (List.mem_cons_of_mem _ hc), Mark.past_append,
        Mark.past_spaces, Mark.past_break rfl]
      cases inFlow <;> simp

/-- A pending key of an earlier line is given up, unless nothing but a key could stand there. -/
lemma dropStale_of_line_lt (houter : s.outer = [])
    (hkey : ∀ k ∈ s.key, k.required = false ∧ k.mark.line < s.mark.line) :
    s.dropStale = .ok { s with key := none } := by
  refine dropStale_eq_ok.2 ⟨?_, ?_⟩
  · rw [houter]
    intro k hk p hp _
    rw [List.mem_singleton.1 hk] at hp
    exact (hkey p hp).1
  · have hnone : s.key.filter (!s.isStale ·) = none := by
      refine Option.filter_eq_none_iff.2 fun k hk => ?_
      simp [isStale, (hkey k hk).2]
    rw [fresh, hnone, houter]
    rfl

/-- Behind a gap, the place in front of a token is reached if no pending key goes over it. -/
lemma reaches_of_gap (gap : List Char) (htaken : s.taken = 0) (houter : s.outer = [])
    (hrest : s.cursor.rest = gap ++ tail) (hgap : ∀ c ∈ gap, c = ' ' ∨ c = '\n')
    (htail : BeginsToken tail)
    (hkey : ∀ k ∈ s.key, k.required = false ∧ k.mark.line < (s.mark.past gap).line) :
    Reaches s (s.keyAllowed || gap.contains '\n') (s.queue.map Token.word) s.indent s.indents
      (s.mark.past gap).column tail := by
  obtain ⟨⟨cs, m⟩, q, taken, indent, indents, keyAllowed, key, outer⟩ := s
  simp only at htaken houter hrest hkey
  subst htaken houter hrest
  have hfuel : gap.length < (gap ++ tail).length + 1 := by
    rw [List.length_append]
    omega
  have hnext := toNextToken_gap (b := keyAllowed) (m := m) false hfuel hgap htail
  refine ⟨_, ⟨q, m.past gap, rfl, rfl, rfl⟩, by simp, ?_⟩
  rw [fetch_eq]
  simp only [atNext, inFlow, List.isEmpty_nil, Bool.not_true, hnext]
  rw [dropStale_of_line_lt rfl hkey]
  simp only [Bool.not_false, Bool.true_and]
  rfl

/-! ### Indicators -/

/-- The word that opens a block in a column, if it is to the right of the one around it. -/
def opening (w : Word) (i : Int) (k : Nat) : List Word :=
  if i < k then [w] else []

/-- The indentations around a block in a column. -/
def around (i : Int) (is : List Int) (k : Nat) : List Int :=
  if i < k then i :: is else is

namespace Stands

lemma roll (h : Stands s b ws i is k rest) (hi : i ≤ k) (w : Word) :
    Stands (s.roll s.mark none w) b (ws ++ opening w i k) k (around i is k) k rest := by
  obtain ⟨q, m, rfl, rfl, rfl⟩ := h
  unfold Scan.roll opening around
  by_cases hlt : i < m.column
  · have hnot : ¬ ((m.column : Int) ≤ i) := by omega
    refine ⟨q ++ [⟨w, m, m⟩], m, ?_, rfl, ?_⟩
    · simp [hlt]
    · simp [inFlow, mark, hnot, hlt, push]
  · obtain rfl : i = m.column := by omega
    refine ⟨q, m, ?_, rfl, ?_⟩
    · simp
    · simp [inFlow, mark]

lemma indicator {c : Char} (h : Stands s b ws i is k (c :: rest)) (b' : Bool) (w : Word) :
    Stands ({ s with keyAllowed := b' }.indicator w 1) b' (ws ++ [w]) i is (k + 1) rest := by
  obtain ⟨q, m, rfl, rfl, rfl⟩ := h
  exact ⟨q ++ [⟨w, m, m.right 1⟩], m.right 1, by simp, rfl, rfl⟩

lemma inFlow (h : Stands s b ws i is k rest) : s.inFlow = false := by
  obtain ⟨q, m, -, -, rfl⟩ := h
  rfl

lemma keyAllowed (h : Stands s b ws i is k rest) : s.keyAllowed = b := by
  obtain ⟨q, m, -, -, rfl⟩ := h
  rfl

lemma key (h : Stands s b ws i is k rest) : s.key = none := by
  obtain ⟨q, m, -, -, rfl⟩ := h
  rfl

lemma dropKey (h : Stands s b ws i is k rest) : s.dropKey = .ok s := by
  obtain ⟨q, m, -, -, rfl⟩ := h
  rfl

lemma rest_eq (h : Stands s b ws i is k rest) : s.cursor.rest = rest := by
  obtain ⟨q, m, -, -, rfl⟩ := h
  rfl

end Stands

lemma blankAfter_one (c : Char) (rest : List Char) (m : Mark) :
    (Cursor.mk (c :: rest) m).blankAfter 1 = Style.endsWord rest := by
  cases rest <;> rfl

lemma atDocumentMark_of_endsWord {c x : Char} (hrest : Style.endsWord rest = true)
    (hx : (isBlank x || isBreak x) = false) (m : Mark) :
    (Cursor.mk (c :: rest) m).atDocumentMark x = false := by
  have htake : (c :: rest).take 3 ≠ [x, x, x] := by
    cases rest with
    | nil => simp
    | cons d rest =>
      have hd : (isBlank d || isBreak d) = true := by simpa [Style.endsWord] using hrest
      intro htake
      obtain rfl : d = x := by simp_all
      rw [hx] at hd
      cases hd
  simp only [Cursor.atDocumentMark, beq_eq_false_iff_ne.2 htake, Bool.and_false, Bool.false_and]

/-- An indicator that opens a block in its column. -/
lemma Reaches.opens {c : Char} {w w' : Word} (h : Reaches s true ws i is k (c :: rest))
    (hi : i ≤ k) (hdispatch : ∀ t, Stands t true ws i is k (c :: rest) → t.dispatch =
      .ok ({ t.roll t.mark none w with keyAllowed := true }.indicator w' 1)) :
    ∃ t, Fetches s t ∧
      Stands t true (ws ++ opening w i k ++ [w']) k (around i is k) (k + 1) rest := by
  obtain ⟨t, ht, hlength, hfetch⟩ := h.fetch_eq hi
  have hstands := (ht.roll hi w).indicator true w'
  refine ⟨_, ⟨hfetch.trans (hdispatch t ht), ?_⟩, hstands⟩
  rw [hstands.rest_eq]
  exact hlength

/-- A dash opens a sequence, unless one is open in its column or need not be. -/
lemma Reaches.dash (h : Reaches s true ws i is k ('-' :: rest)) (hi : i ≤ k)
    (hrest : Style.endsWord rest = true) : ∃ t, Fetches s t ∧
      Stands t true (ws ++ opening .blockSequenceStart i k ++ [.blockEntry]) k (around i is k)
        (k + 1) rest := by
  refine h.opens hi fun t ht => ?_
  have hdispatch : t.dispatch = t.fetchBlockEntry := by
    obtain ⟨q, m, -, -, rfl⟩ := ht
    simp [dispatch, atDocumentMark_of_endsWord (x := '-') hrest rfl,
      atDocumentMark_of_endsWord (x := '.') hrest rfl, blankAfter_one, hrest]
  rw [hdispatch, fetchBlockEntry, ht.inFlow, ht.keyAllowed, (ht.roll hi _).dropKey]
  rfl

/-- A question mark opens a mapping, unless one is open in its column. -/
lemma Reaches.question (h : Reaches s true ws i is k ('?' :: rest)) (hi : i ≤ k)
    (hrest : Style.endsWord rest = true) : ∃ t, Fetches s t ∧
      Stands t true (ws ++ opening .blockMappingStart i k ++ [.key]) k (around i is k)
        (k + 1) rest := by
  refine h.opens hi fun t ht => ?_
  have hdispatch : t.dispatch = t.fetchKey := by
    obtain ⟨q, m, -, -, rfl⟩ := ht
    simp [dispatch, atDocumentMark_of_endsWord (x := '-') hrest rfl,
      atDocumentMark_of_endsWord (x := '.') hrest rfl, blankAfter_one, hrest]
  have hroll := ht.roll hi .blockMappingStart
  rw [hdispatch, fetchKey, ht.inFlow, ht.keyAllowed, hroll.dropKey]
  simp only [bind, Except.bind, hroll.inFlow]
  rfl

/-- A colon in the column of a mapping is in front of the value of a key on an earlier line. -/
lemma Reaches.colon (h : Reaches s true ws k is k (':' :: rest))
    (hrest : Style.endsWord rest = true) : ∃ t, Fetches s t ∧
      Stands t true (ws ++ [.value]) k is (k + 1) rest := by
  have hdispatch : ∀ t, Stands t true ws k is k (':' :: rest) → t.dispatch =
      .ok ({ t.roll t.mark none .blockMappingStart with keyAllowed := true }.indicator
        .value 1) := by
    intro t ht
    have hdispatch : t.dispatch = t.fetchValue := by
      obtain ⟨q, m, -, -, rfl⟩ := ht
      simp [dispatch, atDocumentMark_of_endsWord (x := '-') hrest rfl,
        atDocumentMark_of_endsWord (x := '.') hrest rfl, blankAfter_one, hrest]
    have hroll := ht.roll (Int.le_refl k) .blockMappingStart
    rw [hdispatch, fetchValue, ht.key]
    simp only [ht.inFlow, ht.keyAllowed, hroll.inFlow]
    rfl
  simpa [opening, around] using h.opens (Int.le_refl k) hdispatch

/-! ### The next line -/

/-- At the end of a line, the next step is below it. -/
lemma reaches_of_line (htaken : s.taken = 0) (houter : s.outer = [])
    (hrest : s.cursor.rest = '\n' :: (spaces k ++ tail)) (htail : BeginsToken tail)
    (hkey : ∀ p ∈ s.key, p.required = false ∧ p.mark.line ≤ s.mark.line) :
    Reaches s true (s.queue.map Token.word) s.indent s.indents k tail := by
  have hgap : ∀ c ∈ '\n' :: spaces k, c = ' ' ∨ c = '\n' :=
    List.forall_mem_cons.2 ⟨.inr rfl, fun c hc => .inl (List.eq_of_mem_replicate hc)⟩
  have hpast : s.mark.past ('\n' :: spaces k) = (s.mark.down 1).right k := by
    rw [Mark.past_break rfl, Mark.past_spaces]
  have hreaches := reaches_of_gap _ htaken houter hrest hgap htail fun p hp => by
    rw [hpast]
    exact ⟨(hkey p hp).1, Nat.lt_succ_of_le (hkey p hp).2⟩
  rw [hpast] at hreaches
  simpa [Mark.right, Mark.down] using hreaches

/-- Where no gap is left, the place is the cursor. -/
lemma reaches_of_start (htaken : s.taken = 0) (houter : s.outer = [])
    (htail : BeginsToken s.cursor.rest)
    (hkey : ∀ p ∈ s.key, p.required = false ∧ p.mark.line < s.mark.line) :
    Reaches s s.keyAllowed (s.queue.map Token.word) s.indent s.indents s.mark.column
      s.cursor.rest := by
  simpa [Mark.past] using reaches_of_gap [] htaken houter rfl (by simp) htail hkey

namespace Stands

lemma reaches_space (h : Stands s b ws i is k (' ' :: tail)) (htail : BeginsToken tail) :
    Reaches s b ws i is (k + 1) tail := by
  obtain ⟨q, m, rfl, rfl, rfl⟩ := h
  simpa [Mark.past, isBreak, Mark.right, mark] using
    reaches_of_gap [' '] rfl rfl rfl (by simp) htail (by simp)

lemma reaches_line {n : Nat} (h : Stands s b ws i is k ('\n' :: (spaces n ++ tail)))
    (htail : BeginsToken tail) : Reaches s true ws i is n tail := by
  obtain ⟨q, m, rfl, rfl, rfl⟩ := h
  exact reaches_of_line rfl rfl rfl htail nofun

end Stands

end Scan

end Depot.Yaml
