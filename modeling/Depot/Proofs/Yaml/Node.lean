import Depot.Proofs.Yaml.Place

/-!
# Scalars in a block

What the scanner does at a scalar of the writer: it takes the whole of it, and goes on below it
(`Reaches.scalar`) or at the colon behind it (`Reaches.simpleKey`).
-/

namespace Depot.Yaml

namespace Scan

variable {s t u : Scan} {b : Bool} {w : Word} {ws : List Word} {i : Int} {is : List Int} {c k : Nat}
  {cs rest tail : List Char}

/-! ### Taking a scalar -/

lemma Stands.cursor_eq (h : Stands s b ws i is k rest) :
    ∃ m, m.column = k ∧ s.cursor = ⟨rest, m⟩ ∧ s.mark = m := by
  obtain ⟨q, m, -, hm, rfl⟩ := h
  exact ⟨m, hm, rfl, rfl⟩

/-- What is noted about a key that may begin at a place. -/
def keyHere (s : Scan) : Option PendingKey :=
  if s.keyAllowed then some ⟨s.indent == s.mark.column, s.queue.length, s.mark⟩ else none

lemma mem_keyHere {p : PendingKey} (hp : p ∈ s.keyHere) :
    p.required = (s.indent == s.mark.column) ∧ p.mark = s.mark := by
  unfold keyHere at hp
  split at hp
  · obtain rfl := Option.some.inj hp
    exact ⟨rfl, rfl⟩
  · cases hp

lemma Stands.saveKey (h : Stands s b ws i is k rest) :
    s.saveKey = .ok { s with key := s.keyHere } := by
  obtain ⟨q, m, -, -, rfl⟩ := h
  cases b <;> simp [Scan.saveKey, keyHere, Scan.dropKey, Scan.inFlow, Except.map]

/-- The step at a place takes a scalar: with its word, the pending key behind it, whether a key may
begin there, and the cursor. -/
def Takes (s : Scan) (w : Word) (key : Option PendingKey) (b : Bool) (c : Cursor) (t : Scan) :
    Prop :=
  s.dispatch = .ok t ∧
    ∃ stop, t = { s with key, keyAllowed := b, cursor := c }.push ⟨w, s.mark, stop⟩

lemma Stands.fetchProperty {read : Cursor → Except Fault (Token × Cursor)} {stop : Mark}
    {after : Cursor} (h : Stands s b ws i is k rest) (hdispatch : s.dispatch = s.fetchProperty read)
    (hread : read s.cursor = .ok (⟨w, s.mark, stop⟩, after)) :
    ∃ t, Takes s w s.keyHere false after t := by
  refine ⟨_, ?_, stop, rfl⟩
  rw [hdispatch, Scan.fetchProperty, h.saveKey]
  simp only [bind, Except.bind, hread]
  rfl

lemma Stands.fetchPlain (stop : Mark) {after : Cursor} {broken : Bool}
    (h : Stands s b ws i is k rest) (hdispatch : s.dispatch = s.fetchPlain)
    (hread : readPlain false i s.cursor = .ok (⟨w, s.mark, stop⟩, broken, after)) :
    ∃ t, Takes s w s.keyHere broken after t := by
  refine ⟨_, ?_, stop, rfl⟩
  obtain ⟨q, m, -, -, rfl⟩ := id h
  rw [hdispatch, Scan.fetchPlain, h.saveKey]
  simp only [bind, Except.bind, Scan.inFlow, List.isEmpty_nil, Bool.not_true, hread]
  rfl

lemma Stands.fetchBlockScalar (stop : Mark) {after : Cursor} {literal : Bool}
    (h : Stands s b ws i is k rest) (hdispatch : s.dispatch = s.fetchBlockScalar literal)
    (hread : readBlock literal i s.cursor = .ok (⟨w, s.mark, stop⟩, after)) :
    ∃ t, Takes s w none true after t := by
  refine ⟨_, ?_, stop, rfl⟩
  obtain ⟨q, m, -, -, rfl⟩ := id h
  rw [hdispatch, Scan.fetchBlockScalar, h.dropKey]
  simp only [bind, Except.bind, hread]
  rfl

/-! ### Below a scalar -/

/-- A scalar is taken on the way to a token in some column, on a line below any key that may begin
with it. -/
def EndsLine (s : Scan) (w : Word) (k : Nat) (tail : List Char) : Prop :=
  ∃ t key b after gap, Takes s w key b after t ∧
    (key = none ∨ key = s.keyHere ∧ s.mark.line < (after.mark.past gap).line) ∧
    after.rest = gap ++ tail ∧ after.rest.length < s.cursor.rest.length ∧
    (∀ c ∈ gap, c = ' ' ∨ c = '\n') ∧ (b || gap.contains '\n') = true ∧
    (after.mark.past gap).column = k

lemma Reaches.below (h : Reaches s b ws i is c rest) (hc : i < c)
    (hends : ∀ t, Stands t b ws i is c rest → EndsLine t w k tail) (htail : BeginsToken tail) :
    ∃ t, Fetches s t ∧ Reaches t true (ws ++ [w]) i is k tail := by
  obtain ⟨t, ht, hlength, hfetch⟩ := h.fetch_eq (by omega)
  obtain ⟨u, key, b', after, gap, ⟨hu, stop, rfl⟩, hkey, hrest, hshorter, hgap, hb, hcolumn⟩ :=
    hends t ht
  rw [ht.rest_eq] at hshorter
  obtain ⟨q, m, rfl, rfl, rfl⟩ := ht
  refine ⟨_, ⟨hfetch.trans hu, Nat.lt_of_lt_of_le hshorter hlength⟩, ?_⟩
  have hkey' : ∀ p ∈ key, p.required = false ∧ p.mark.line < (after.mark.past gap).line := by
    intro p hp
    rcases hkey with rfl | ⟨rfl, hline⟩
    · cases hp
    · obtain ⟨hrequired, hmark⟩ := mem_keyHere hp
      have hne : i ≠ m.column := by omega
      exact ⟨by simp [hrequired, mark, hne], by rwa [hmark]⟩
  have hreaches := reaches_of_gap gap (s := push
    { cursor := after, queue := q, indent := i, indents := is, keyAllowed := b', key } ⟨w, m, stop⟩)
    rfl rfl hrest hgap htail hkey'
  have hwords : (q ++ [Token.mk w m stop]).map Token.word = q.map Token.word ++ [w] := by simp
  rw [← hwords, ← hcolumn, ← hb]
  exact hreaches

/-! ### The four styles -/

lemma atDocumentMark_of_ne {c x : Char} (h : c ≠ x) (m : Mark) :
    (Cursor.mk (c :: rest) m).atDocumentMark x = false := by
  simp [Cursor.atDocumentMark, h]

lemma Stands.dispatch_quoted (single : Bool) (h : Stands s b ws i is k (closing single :: rest)) :
    s.dispatch = s.fetchProperty (readQuoted single) := by
  obtain ⟨q, m, -, -, rfl⟩ := h
  cases single <;>
    simp [dispatch, closing, atDocumentMark_of_ne (x := '-'), atDocumentMark_of_ne (x := '.')]

lemma Stands.dispatch_literal (h : Stands s b ws i is k ('|' :: rest)) :
    s.dispatch = s.fetchBlockScalar true := by
  obtain ⟨q, m, -, -, rfl⟩ := h
  simp [dispatch, atDocumentMark_of_ne (x := '-'), atDocumentMark_of_ne (x := '.'), Scan.inFlow]

lemma beginsPlain_of_isPlain {c : Char} (hcs : IsPlain (c :: cs)) (rest : List Char) :
    beginsPlain false c (cs ++ rest).head? = true := by
  obtain ⟨hreserved, hblank, hword⟩ := hcs.first
  by_cases hc : c = '-' ∨ c = '?' ∨ c = ':'
  · have hends := endsWord_append_eq_false (hword hc) rest
    have hnot : (cs ++ rest).head?.any isBlank = false := by
      cases hhead : (cs ++ rest).head? with
      | none => rfl
      | some d =>
        simp only [Style.endsWord, hhead, Option.all_some, Bool.or_eq_false_iff] at hends
        exact hends.1
    rw [Style.endsWord] at hends
    unfold beginsPlain
    generalize (cs ++ rest).head? = next at hends hnot ⊢
    rcases hc with rfl | rfl | rfl
    · simp [hnot]
    · simp [hends]
    · simp [hends]
  · obtain ⟨⟨h1, h2, h3, h4, h5, h6⟩, ⟨h7, h8, h9, h10, h11, h12, h13⟩, h14, h15, h16⟩ :=
      ne_of_reserved hreserved
    simp only [not_or] at hc
    simp [beginsPlain, hblank, hc, h2, h3, h4, h5, h6, h7, h8, h9, h10, h11, h12, h13, h14, h1,
      h15, h16]

lemma Stands.dispatch_plain {x : Char} (h : Stands s b ws i is k (cs ++ x :: rest))
    (hcs : IsPlain cs) (hx : x ≠ '-' ∧ x ≠ '.') : s.dispatch = s.fetchPlain := by
  obtain ⟨q, m, -, -, rfl⟩ := h
  have hmark := hcs.not_atDocumentMark (m := m) (e := rest) hx
  obtain ⟨c, cs, rfl⟩ := List.exists_cons_of_ne_nil hcs.ne_nil
  have hplain := beginsPlain_of_isPlain hcs (x :: rest)
  obtain ⟨hreserved, -, hword⟩ := hcs.first
  obtain ⟨⟨h1, h2, h3, h4, h5, h6⟩, ⟨h7, h8, h9, h10, h11, h12, h13⟩, h14, h15, h16⟩ :=
    ne_of_reserved hreserved
  have hbare : ∀ y, y = '-' ∨ y = '?' ∨ y = ':' →
      (c == y && Style.endsWord (cs ++ x :: rest)) = false := by
    intro y hy
    by_cases hc : c = y
    · subst hc
      rw [endsWord_append_eq_false (hword hy), Bool.and_false]
    · rw [beq_eq_false_iff_ne.2 hc, Bool.false_and]
  rw [List.cons_append, Bool.or_eq_false_iff] at hmark
  simp only [dispatch, List.cons_append, hmark.1, hmark.2, blankAfter_one, Scan.inFlow,
    List.isEmpty_nil, Bool.not_true, Bool.false_or, hbare, hplain, beq_eq_false_iff_ne.2, h1, h2, h3,
    h4, h5, h6, h7, h8, h9, h10, h11, h12, h13, ne_eq, not_false_eq_true, Bool.and_false,
    Bool.false_and, Bool.false_eq_true, if_false, if_true, true_or, or_true]

lemma Stands.plain_endsLine (h : Stands s b ws i is c (cs ++ '\n' :: (spaces k ++ tail)))
    (hcs : IsPlain cs) (hi : i ≤ c) (hk : k ≤ i) (htail : BeginsToken tail) :
    EndsLine s (.scalar cs true) k tail := by
  have hdispatch := h.dispatch_plain hcs (by decide)
  have hlimit : (k : Int) < i + 1 := by omega
  obtain ⟨m, rfl, hcursor, hmark⟩ := h.cursor_eq
  have hread : readPlain false i ⟨cs ++ '\n' :: (spaces k ++ tail), m⟩ = _ :=
    readPlain_eq hcs (endsPlain_line htail.beginsWord hlimit)
      (hcs.not_atDocumentMark (by decide)) hi
  rw [← hcursor] at hread
  obtain ⟨t, ht⟩ := h.fetchPlain (m.right cs.length) hdispatch (by rw [hread, hmark])
  have hpast : (m.right cs.length).past ('\n' :: spaces k) =
      ((m.right cs.length).down 1).right k := by
    rw [Mark.past_break rfl, Mark.past_spaces]
  refine ⟨t, _, _, _, [], ht, .inr ⟨rfl, ?_⟩, rfl, ?_, nofun, rfl, ?_⟩
  · rw [Mark.past, hmark, hpast]
    simp [Mark.right, Mark.down]
  · rw [hcursor]
    simp only [List.length_append, List.length_cons]
    omega
  · rw [Mark.past, hpast]
    simp [Mark.right, Mark.down]

lemma Stands.quoted_endsLine (single : Bool) {sp : List Char}
    (h : Stands s b ws i is c (closing single :: sp ++ '\n' :: (spaces k ++ tail)))
    (hread : ∀ m, readQuoted single ⟨closing single :: sp ++ '\n' :: (spaces k ++ tail), m⟩ =
      .ok (⟨.scalar cs false, m, m.past (closing single :: sp)⟩,
        ⟨'\n' :: (spaces k ++ tail), m.past (closing single :: sp)⟩)) :
    EndsLine s (.scalar cs false) k tail := by
  have hdispatch := h.dispatch_quoted single
  obtain ⟨m, rfl, hcursor, hmark⟩ := h.cursor_eq
  obtain ⟨t, ht⟩ := h.fetchProperty (w := .scalar cs false) hdispatch
    (by rw [hcursor, hread, hmark])
  have hgap : ∀ c ∈ '\n' :: spaces k, c = ' ' ∨ c = '\n' :=
    List.forall_mem_cons.2 ⟨.inr rfl, fun c hc => .inl (List.eq_of_mem_replicate hc)⟩
  refine ⟨t, _, _, _, '\n' :: spaces k, ht, .inr ⟨rfl, ?_⟩, rfl, ?_, hgap, by simp, ?_⟩
  · rw [hmark, Mark.past_break rfl, Mark.past_spaces]
    exact Nat.lt_succ_of_le (m.line_le_past _)
  · rw [hcursor]
    simp only [List.length_append, List.length_cons]
    omega
  · rw [Mark.past_break rfl, Mark.past_spaces]
    simp [Mark.right, Mark.down]

lemma Stands.literal_endsLine {n : Nat} (h : Stands s b ws n is c
      (endLine ('|' :: literalHints cs ++ '\n' :: indentLines (n + 2) true cs) ++
        (spaces k ++ tail)))
    (hcs : Style.allowsLiteral cs = true) (hne : cs ≠ []) (hk : k ≤ n) (htail : BeginsToken tail) :
    EndsLine s (.scalar cs false) k tail := by
  obtain ⟨r, hr⟩ := exists_endLine_eq
    ('|' :: literalHints cs ++ '\n' :: indentLines (n + 2) true cs)
  have htext : endLine ('|' :: literalHints cs ++ '\n' :: indentLines (n + 2) true cs) ++
      (spaces k ++ tail) = '|' :: (literalHints cs ++ '\n' :: indentLines (n + 2) true cs ++
        (r ++ (spaces k ++ tail))) := by
    rw [hr]
    simp
  have hdispatch := Stands.dispatch_literal (htext ▸ h)
  obtain ⟨m, rfl, hcursor, hmark⟩ := h.cursor_eq
  obtain ⟨stop, m', hread, hm'⟩ := readBlock_literal (m := m) hcs hne hk htail.beginsWord
  obtain ⟨t, ht⟩ := h.fetchBlockScalar (w := .scalar cs false) stop hdispatch
    (by rw [hcursor, hread, hmark])
  refine ⟨t, none, true, _, [], ht, .inl rfl, rfl, ?_, nofun, rfl, hm'⟩
  rw [hcursor, htext]
  simp
  omega

/-! ### Any string -/

/-- A plain text is taken on the way to the next line, below a block that it is inside of. -/
lemma Reaches.plain {n : Nat} (h : Reaches s b ws n is c (cs ++ '\n' :: (spaces k ++ tail)))
    (hcs : IsPlain cs) (hc : n < c) (hk : k ≤ n) (htail : BeginsToken tail) :
    ∃ t, Fetches s t ∧ Reaches t true (ws ++ [.scalar cs true]) n is k tail :=
  h.below (by omega) (fun _ ht => ht.plain_endsLine hcs (by omega) (by omega) htail) htail

/-- A string is taken on the way to the next line, below a block that it is inside of. -/
theorem Reaches.scalar {n : Nat} {v : String}
    (h : Reaches s b ws n is c (endLine (spell (n + 2) v) ++ (spaces k ++ tail))) (hc : n < c)
    (hk : k ≤ n) (htail : BeginsToken tail) :
    ∃ t, Fetches s t ∧ Reaches t true (ws ++ [scalarWord v]) n is k tail := by
  refine h.below (by omega) (fun t ht => ?_) htail
  have hspelled := spelled (n + 2) v
  unfold scalarWord
  generalize Style.ofString v = style at hspelled ⊢
  generalize spell (n + 2) v = sp at hspelled ht
  cases hspelled with
  | plain hplain _ =>
    have hlast : v.toList.getLast? = some (v.toList.getLast hplain.ne_nil) :=
      List.getLast?_eq_some_getLast hplain.ne_nil
    have hline := hplain.isLine _ (List.getLast_mem hplain.ne_nil)
    rw [endLine_of_getLast? hlast hline, List.append_assoc] at ht
    exact ht.plain_endsLine hplain (by omega) (by omega) htail
  | single hsingle hlf =>
    have hlast : ('\'' :: indentLines (n + 2) false
        (v.toList.flatMap singleQuotedChar ++ ['\''])).getLast? = some '\'' := by
      rw [List.getLast?_cons, getLast?_indentLines, List.getLast?_concat]
      rfl
    rw [endLine_of_getLast? hlast rfl, List.append_assoc] at ht
    exact Stands.quoted_endsLine true ht fun m =>
      readQuoted_single hsingle hlf (by omega) (by simp)
  | double =>
    rw [endLine_of_getLast? List.getLast?_concat rfl, List.append_assoc] at ht
    exact Stands.quoted_endsLine false ht fun m => readQuoted_double _ _ m
  | literal hliteral hlf =>
    exact ht.literal_endsLine hliteral (List.ne_nil_of_mem hlf) hk htail

/-! ### Keys -/

/-- Pending keys that may still get their colon are kept. -/
lemma fetch_of_pending (hrest : BeginsToken s.cursor.rest)
    (hkeys : ∀ k ∈ s.key :: s.outer, ∀ p ∈ k, s.isStale p = false) :
    s.fetch = (s.unroll s.mark.column).dispatch := by
  have hnext : toNextToken s.inFlow (s.cursor.rest.length + 1) s.keyAllowed s.cursor =
      (s.keyAllowed, s.cursor) := by
    have hgap := toNextToken_gap (b := s.keyAllowed) (m := s.mark) s.inFlow
      (Nat.succ_pos s.cursor.rest.length) (List.forall_mem_nil _) hrest
    simpa [Mark.past, mark] using hgap
  have hatNext : s.atNext = s := by
    rw [atNext, hnext]
  have hkeep : ∀ k ∈ s.key :: s.outer, k.filter (!s.isStale ·) = k := by
    rintro (_ | p) hp
    · rfl
    · simp [Option.filter_some, hkeys _ hp p rfl]
  have hfresh : s.fresh = s := by
    obtain ⟨hkey, houter⟩ := List.forall_mem_cons.1 hkeep
    rw [fresh, hkey, List.map_congr_left houter, List.map_id']
  have hdrop : s.dropStale = .ok s := by
    refine dropStale_eq_ok.2 ⟨fun k hk p hp hstale => ?_, hfresh.symm⟩
    rw [hkeys k hk p hp] at hstale
    cases hstale
  rw [fetch_eq, hatNext, hdrop]
  rfl

/-- The colon behind a key on its line makes it the key of a mapping. -/
lemma Stands.colon {n : Nat} (h : Stands s true ws i is n rest) (hi : i ≤ n)
    (htakes : Takes s w s.keyHere false ⟨':' :: tail, s.mark.right k⟩ t) (hk : k ≤ 1024)
    (htail : Style.endsWord tail = true) : ∃ u, Fetches t u ∧
      Stands u false (ws ++ opening .blockMappingStart i n ++ [.key, w, .value]) n
        (around i is n) (n + k + 1) tail := by
  obtain ⟨-, stop, rfl⟩ := htakes
  obtain ⟨q, m, rfl, rfl, rfl⟩ := h
  generalize ht : push _ _ = t
  have hcursor : t.cursor = ⟨':' :: tail, m.right k⟩ := by
    rw [← ht]
    rfl
  have hkey : t.key = some ⟨i == m.column, q.length, m⟩ := by
    rw [← ht]
    rfl
  have houter : t.outer = [] := by
    rw [← ht]
    rfl
  have hfetch : t.fetch = (t.unroll t.mark.column).dispatch := by
    refine fetch_of_pending ?_ ?_
    · rw [hcursor]
      simp [NotAhead, isBlank, isBreak]
    · rw [hkey, houter]
      simp [isStale, mark, hcursor, Mark.right, hk]
  have hindent : t.indent ≤ t.mark.column := by
    rw [← ht]
    simp only [push, mark, Mark.right]
    omega
  have hdispatch : t.dispatch = t.fetchValue := by
    simp [dispatch, hcursor, atDocumentMark_of_ne (x := '-'), atDocumentMark_of_ne (x := '.'),
      blankAfter_one, htail]
  rw [unroll_of_le hindent, hdispatch, fetchValue, hkey] at hfetch
  obtain ⟨u, hu, hstands⟩ : ∃ u, t.fetch = .ok u ∧
      Stands u false (q.map Token.word ++ opening .blockMappingStart i m.column ++
        [.key, w, .value]) m.column (around i is m.column) (m.column + k + 1) tail := by
    refine ⟨_, hfetch, ?_⟩
    by_cases hlt : i < m.column
    · have hnot : ¬ ((m.column : Int) ≤ i) := by omega
      refine ⟨q ++ [⟨.blockMappingStart, m, m⟩, ⟨.key, m, m⟩, ⟨w, m, stop⟩,
        ⟨.value, m.right k, (m.right k).right 1⟩], (m.right k).right 1, ?_, rfl, ?_⟩
      · simp [opening, hlt]
      · rw [← ht]
        simp [insertAt, Scan.roll, push, Scan.indicator, Scan.inFlow, mark, Cursor.skip, around,
          hlt, hnot]
    · obtain rfl : i = m.column := by omega
      refine ⟨q ++ [⟨.key, m, m⟩, ⟨w, m, stop⟩,
        ⟨.value, m.right k, (m.right k).right 1⟩], (m.right k).right 1, ?_, rfl, ?_⟩
      · simp [opening]
      · rw [← ht]
        simp [insertAt, Scan.roll, push, Scan.indicator, Scan.inFlow, mark, Cursor.skip, around]
  refine ⟨u, ⟨hu, ?_⟩, hstands⟩
  rw [hstands.rest_eq, hcursor]
  exact Nat.lt_succ_self _

/-- A string is taken as a key up to the colon behind it. -/
lemma Stands.takes_key {n : Nat} {key : String}
    (h : Stands s b ws i is c (spell n key ++ ':' :: tail)) (hi : i ≤ c) (hn : 0 < n)
    (hkey : IsLine key.toList) (htail : Style.endsWord tail = true) :
    ∃ t, Takes s (scalarWord key) s.keyHere false
      ⟨':' :: tail, s.mark.right (spell n key).length⟩ t := by
  have hline := (isLine_spell hkey n).1
  have hspelled := spelled n key
  obtain ⟨m, rfl, hcursor, hmark⟩ := h.cursor_eq
  unfold scalarWord
  generalize Style.ofString key = style at hspelled ⊢
  generalize spell n key = sp at hspelled h hcursor hline ⊢
  rw [hmark]
  cases hspelled with
  | plain hplain _ =>
    have hread : readPlain false i ⟨key.toList ++ ':' :: tail, m⟩ = _ :=
      readPlain_eq hplain (endsPlain_colon htail _) (hplain.not_atDocumentMark (by decide)) hi
    exact h.fetchPlain _ (h.dispatch_plain hplain (by decide)) (by rw [hcursor, hread, hmark]; rfl)
  | single hsingle hlf =>
    have hread := readQuoted_single (m := m) hsingle hlf hn
      (by simp : (':' :: tail).head? ≠ some '\'')
    rw [Mark.past_of_isLine hline] at hread
    exact h.fetchProperty (Stands.dispatch_quoted true h)
      (by rw [hcursor, hread, hmark]; rfl)
  | double =>
    have hread := readQuoted_double key.toList (':' :: tail) m
    rw [Mark.past_of_isLine hline] at hread
    exact h.fetchProperty (Stands.dispatch_quoted false h)
      (by rw [hcursor, hread, hmark]; rfl)
  | literal _ hlf => exact absurd (hkey _ hlf) (by decide)

/-- A key that shares a line with its value. -/
theorem Reaches.simpleKey {n : Nat} {key : String}
    (h : Reaches s true ws i is n (spell (n + 2) key ++ ':' :: tail)) (hi : i ≤ n)
    (hkey : isSimpleKey key = true) (htail : Style.endsWord tail = true) :
    ∃ t c, Steps s t ∧ n ≤ c ∧
      Stands t false (ws ++ opening .blockMappingStart i n ++ [.key, scalarWord key, .value]) n
        (around i is n) c tail := by
  rw [isSimpleKey, Bool.and_eq_true, decide_eq_true_eq] at hkey
  have hline : IsLine key.toList := by
    intro c hc
    simpa using List.any_eq_false.1 (by simpa using hkey.1) c hc
  have hlength := (isLine_spell hline (n + 2)).2
  have hoctets := length_le_utf8ByteSize key
  have hlimit := hkey.2
  unfold keyLimit at hlimit
  obtain ⟨t, ht, hle, hfetch⟩ := h.fetch_eq hi
  obtain ⟨u, hu⟩ := ht.takes_key hi (by omega) hline htail
  obtain ⟨v, hv, hstands⟩ := ht.colon hi hu (by omega) htail
  refine ⟨v, _, .tail (.single ⟨hfetch.trans hu.1, ?_⟩) hv, ?_, hstands⟩
  · have hne := List.length_pos_iff.2 (spell_ne_nil (n + 2) key)
    obtain ⟨-, stop, rfl⟩ := hu
    simp only [List.length_append, List.length_cons, push] at hle ⊢
    omega
  · omega

/-- A key on lines of its own, in front of the colon below it. -/
theorem Reaches.longKey {n : Nat} {key : String}
    (h : Reaches s true ws i is n
      ('?' :: ' ' :: (endLine (spell (n + 2) key) ++ (spaces n ++ ':' :: tail))))
    (hi : i ≤ n) (htail : Style.endsWord tail = true) :
    ∃ t, Steps s t ∧
      Stands t true (ws ++ opening .blockMappingStart i n ++ [.key, scalarWord key, .value]) n
        (around i is n) (n + 1) tail := by
  obtain ⟨t₁, h₁, hstands⟩ := h.question hi rfl
  have hbegins := beginsToken_endLine_spell (n + 2) key (spaces n ++ ':' :: tail)
  obtain ⟨t₂, h₂, hreaches⟩ := (hstands.reaches_space hbegins).scalar (by omega) (Nat.le_refl n)
    (by simp [NotAhead, isBlank, isBreak])
  obtain ⟨t₃, h₃, hstands⟩ := hreaches.colon htail
  refine ⟨t₃, .tail (.tail (.single h₁) h₂) h₃, ?_⟩
  simpa using hstands

/-! ### Empty collections -/

/-- A bracket or brace and its counterpart. -/
inductive Encloses : Char → Char → Word → Word → Prop
  | sequence : Encloses '[' ']' .flowSequenceStart .flowSequenceEnd
  | mapping : Encloses '\x7b' '\x7d' .flowMappingStart .flowMappingEnd

lemma Encloses.dispatch_open {x y : Char} {w w' : Word} (h : Encloses x y w w')
    (hs : s.cursor.rest = x :: rest) : s.dispatch = s.fetchFlowStart w := by
  have hcursor : s.cursor = ⟨x :: rest, s.mark⟩ := by rw [← hs, mark]
  cases h <;>
    simp [dispatch, hcursor, atDocumentMark_of_ne (x := '-'), atDocumentMark_of_ne (x := '.')]

lemma Encloses.dispatch_close {x y : Char} {w w' : Word} (h : Encloses x y w w')
    (hs : s.cursor.rest = y :: rest) : s.dispatch = s.fetchFlowEnd w' := by
  have hcursor : s.cursor = ⟨y :: rest, s.mark⟩ := by rw [← hs, mark]
  cases h <;>
    simp [dispatch, hcursor, atDocumentMark_of_ne (x := '-'), atDocumentMark_of_ne (x := '.')]

/-- An opening bracket or brace and the closing one right behind it. -/
lemma Reaches.empty {x y : Char} {w w' : Word}
    (h : Reaches s b ws i is c (x :: y :: '\n' :: (spaces k ++ tail))) (hc : i < c)
    (hxy : Encloses x y w w') (htail : BeginsToken tail) :
    ∃ t, Steps s t ∧ Reaches t true (ws ++ [w, w']) i is k tail := by
  obtain ⟨t, ht, hlength, hfetch⟩ := h.fetch_eq (by omega)
  rw [hxy.dispatch_open ht.rest_eq, fetchFlowStart, ht.saveKey] at hfetch
  obtain ⟨q, m, rfl, rfl, rfl⟩ := ht
  generalize hkey : keyHere _ = key at hfetch
  have hpending : ∀ p ∈ key, p.required = false ∧ p.mark = m := by
    intro p hp
    rw [← hkey] at hp
    obtain ⟨hrequired, hmark⟩ := mem_keyHere hp
    have hne : i ≠ m.column := by omega
    exact ⟨by simp [hrequired, mark, hne], hmark⟩
  have hopen : s.fetch = .ok
      { cursor := ⟨y :: '\n' :: (spaces k ++ tail), m.right 1⟩
        queue := q ++ [⟨w, m, m.right 1⟩], indent := i, indents := is, outer := [key] } := hfetch
  have hclose : ∀ u : Scan, u =
      { cursor := ⟨y :: '\n' :: (spaces k ++ tail), m.right 1⟩
        queue := q ++ [⟨w, m, m.right 1⟩], indent := i, indents := is, outer := [key] } →
      u.fetch = .ok
        { cursor := ⟨'\n' :: (spaces k ++ tail), (m.right 1).right 1⟩
          queue := q ++ [⟨w, m, m.right 1⟩] ++ [⟨w', m.right 1, (m.right 1).right 1⟩]
          indent := i, indents := is, keyAllowed := false, key } := by
    rintro u rfl
    rw [fetch_of_pending, unroll_of_le, hxy.dispatch_close rfl]
    · rfl
    · simp only [mark, Mark.right]
      omega
    · cases hxy <;> simp [NotAhead, isBlank, isBreak]
    · simp only [List.forall_mem_cons]
      refine ⟨by simp, fun p hp => ?_, by simp⟩
      simp [isStale, (hpending p hp).2, mark, Mark.right]
  refine ⟨_, .tail (.single ⟨hopen, ?_⟩) ⟨hclose _ rfl, ?_⟩, ?_⟩
  · simp only [List.length_cons] at hlength ⊢
    omega
  · simp
  · have hkey' : ∀ p ∈ key, p.required = false ∧ p.mark.line ≤ ((m.right 1).right 1).line :=
      fun p hp => ⟨(hpending p hp).1, (hpending p hp).2 ▸ Nat.le_refl _⟩
    have hreaches := reaches_of_line rfl rfl rfl htail hkey' (s :=
      { cursor := ⟨'\n' :: (spaces k ++ tail), (m.right 1).right 1⟩
        queue := q ++ [⟨w, m, m.right 1⟩] ++ [⟨w', m.right 1, (m.right 1).right 1⟩]
        indent := i, indents := is, keyAllowed := false, key })
    simpa using hreaches

end Scan

end Depot.Yaml
