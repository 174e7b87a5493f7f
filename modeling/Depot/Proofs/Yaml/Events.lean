import Depot.Proofs.Yaml.Words
import Depot.Yaml.Event

/-!
# The events of a value

The parser takes the words of a value to the events that `valueItems` lists, and is then in front of
what follows (`parses`). What was expected around the value comes next.
-/

namespace Depot.Yaml

open Json (Storable)

/-! ### Items -/

mutual

/-- The pieces of structure that a value consists of. -/
def valueItems : Json → List Item
  | .null => [.scalar none none "null".toList true]
  | .bool b => [.scalar none none (if b then "true" else "false").toList true]
  | .number n => [.scalar none none (spellNumber n) true]
  | .string s => [.scalar none none s.toList (Style.ofString s == .plain)]
  | .array items => .sequenceStart none none :: itemItems items ++ [.sequenceEnd]
  | .object fields => .mappingStart none none :: fieldItems fields ++ [.mappingEnd]

/-- The pieces of structure that the items of a sequence consist of. -/
def itemItems : List Json → List Item
  | [] => []
  | v :: rest => valueItems v ++ itemItems rest

/-- The pieces of structure that the fields of a mapping consist of. -/
def fieldItems : List (String × Json) → List Item
  | [] => []
  | (key, v) :: rest =>
    .scalar none none key.toList (Style.ofString key == .plain) :: valueItems v ++ fieldItems rest

end

namespace Parse

variable {p q : Parse} {st : Step} {es es' : List Event} {is is' : List Item} {w : Word}
  {ws ws' : List Word} {s s' : Expect} {later later' : List Expect} {block indentless : Bool}
  {m start : Mark} {ended : Option Fault}

/-! ### Runs of the parser -/

/-- A step and the steps behind it, with the events that they give and the state at their end. -/
inductive Yields : Step → List Event → Parse → Prop
  | last (e : Event) (q : Parse) : Yields (.event e q) [e] q
  | more (e : Event) {p q : Parse} {es : List Event} (h : Yields p.step es q) :
      Yields (.event e p) (e :: es) q

lemma Yields.trans (h : Yields st es p) (h' : Yields p.step es' q) : Yields st (es ++ es') q := by
  induction h with
  | last e => exact .more e h'
  | more e _ ih => exact .more e (ih h')

lemma Yields.eventsFrom_eq (h : Yields p.step es q) (fuel : Nat) :
    eventsFrom ended (es.length + fuel) p =
      (es ++ (eventsFrom ended fuel q).1, (eventsFrom ended fuel q).2) := by
  generalize hst : p.step = st at h
  induction h generalizing p with
  | last e q =>
    rw [List.length_singleton, Nat.add_comm, eventsFrom, hst]
    rfl
  | more e h ih =>
    rw [List.length_cons, Nat.add_right_comm, eventsFrom, hst]
    simp only [ih rfl]
    rfl

/-- The words to come, and what was expected around the node that comes next. -/
structure Awaits (p : Parse) (ws : List Word) (later : List Expect) : Prop where
  words : p.tokens.map Token.word = ws
  later : p.later = later

/-- A step, and those behind it, go over some pieces of structure to a state in front of some
words. -/
def Gives (st : Step) (is : List Item) (ws : List Word) (s : Expect) (later : List Expect) : Prop :=
  ∃ es q, Yields st es q ∧ es.map Event.item = is ∧ q.Awaits ws later ∧ q.state = s

lemma Gives.last {i : Item} (h : q.Awaits ws later) (hs : q.state = s) :
    Gives (.event ⟨i, m⟩ q) [i] ws s later :=
  ⟨_, _, .last _ _, rfl, h, hs⟩

lemma Gives.more {i : Item} (h : Gives p.step is ws s later) :
    Gives (.event ⟨i, m⟩ p) (i :: is) ws s later := by
  obtain ⟨es, q, hes, rfl, hq⟩ := h
  exact ⟨_, q, .more _ hes, rfl, hq⟩

lemma Gives.trans (h : Gives st is ws s later)
    (h' : ∀ q, Awaits q ws later → q.state = s → Gives q.step is' ws' s' later') :
    Gives st (is ++ is') ws' s' later' := by
  obtain ⟨es, q, hes, rfl, hq, hs⟩ := h
  obtain ⟨es', r, hes', rfl, hr⟩ := h' q hq hs
  exact ⟨es ++ es', r, hes.trans hes', List.map_append, hr⟩

/-! ### Single steps -/

lemma Awaits.advance (h : Awaits p (w :: ws) later) : p.advance.Awaits ws later := by
  refine ⟨?_, h.later⟩
  rw [Parse.advance, List.map_tail, h.words, List.tail_cons]

lemma Awaits.pop (h : Awaits p ws (s :: later)) : p.pop.Awaits ws later ∧ p.pop.state = s := by
  unfold Parse.pop
  rw [h.later]
  exact ⟨⟨h.words, rfl⟩, rfl⟩

lemma Awaits.pushed (h : Awaits p ws later) (s : Expect) : (p.pushed s).Awaits ws (s :: later) :=
  ⟨h.words, congrArg _ h.later⟩

lemma Awaits.expecting (h : Awaits p ws later) (s : Expect) : (p.expecting s).Awaits ws later :=
  ⟨h.words, h.later⟩

lemma Awaits.exists_token (h : Awaits p (w :: ws) later) :
    ∃ start stop ts, p.tokens = ⟨w, start, stop⟩ :: ts := by
  obtain ⟨⟨_, start, stop⟩, ts, ht, rfl, -⟩ := List.map_eq_cons_iff.1 h.words
  exact ⟨start, stop, ts, ht⟩

lemma node_scalar {cs : List Char} {plain : Bool}
    (h : Awaits p (.scalar cs plain :: ws) (s :: later)) :
    Gives (p.node block indentless) [.scalar none none cs plain] ws s later := by
  obtain ⟨start, stop, ts, ht⟩ := h.exists_token
  obtain ⟨hq, hs⟩ := h.advance.pop
  have hnode : p.node block indentless =
      .event ⟨.scalar none none cs plain, start⟩ p.advance.pop := by
    cases p
    subst ht
    rfl
  rw [hnode]
  exact .last hq hs

/-- The words that a collection opens with, and what is expected in it. -/
inductive Opens : Bool → Word → Item → (Mark → Expect) → Prop
  | sequence (indentless : Bool) :
      Opens indentless .blockSequenceStart (.sequenceStart none none) (.blockEntry true)
  | mapping (indentless : Bool) :
      Opens indentless .blockMappingStart (.mappingStart none none) (.blockKey true)
  | entry : Opens true .blockEntry (.sequenceStart none none) fun _ => .indentlessEntry
  | flowSequence (indentless : Bool) :
      Opens indentless .flowSequenceStart (.sequenceStart none none) (.flowEntry true)
  | flowMapping (indentless : Bool) :
      Opens indentless .flowMappingStart (.mappingStart none none) (.flowKey true)

lemma node_open {i : Item} {inside : Mark → Expect} (h : Awaits p (w :: ws) later)
    (hw : Opens indentless w i inside)
    (hinside : ∀ m, Gives (p.expecting (inside m)).step is ws' s' later') :
    Gives (p.node true indentless) (i :: is) ws' s' later' := by
  obtain ⟨start, stop, ts, ht⟩ := h.exists_token
  have hnode : p.node true indentless = .event ⟨i, start⟩ (p.expecting (inside start)) := by
    cases hw <;> simp [node, look, ht, readProperties, resolveTag, expecting]
  rw [hnode]
  exact .more (hinside start)

lemma nodeUnless_eq {absent : List Word} (h : Awaits p (w :: ws) later) (hw : w ∉ absent) :
    p.nodeUnless absent block indentless m s = (p.pushed s).node block indentless := by
  obtain ⟨start, stop, ts, ht⟩ := h.exists_token
  simp [nodeUnless, look, ht, hw]

/-! ### Values -/

/-- The parser goes over a value to what follows it, which shows the end of a sequence that is not
indented. -/
def Parses (v : Json) : Prop :=
  ∀ ⦃p s later ws⦄ (sameLine indentless : Bool),
    Awaits p (behindWords sameLine v ++ ws) (s :: later) →
    (sameLine = false → indentless = true ∧ ∃ w ws', ws = w :: ws' ∧ w ≠ .blockEntry) →
    Gives (p.node true indentless) (valueItems v) ws s later

lemma exists_behindWords_eq (sameLine : Bool) (v : Json) :
    ∃ w ws, behindWords sameLine v = w :: ws ∧ w ∉ [.key, .value, .blockEnd] ∧
      (sameLine = true → w ≠ .blockEntry) := by
  cases v with
  | null | bool | number | string => exact ⟨_, _, rfl, by simp [scalarWord], by simp [scalarWord]⟩
  | array items =>
    cases items with
    | nil => exact ⟨_, _, rfl, by simp, by simp⟩
    | cons v rest => cases sameLine <;> exact ⟨_, _, rfl, by simp, by simp⟩
  | object fields => cases fields <;> exact ⟨_, _, rfl, by simp, by simp⟩

/-- In front of a value, a node was not left out. -/
lemma nodeUnless_behindWords {absent : List Word} {v : Json} {sameLine : Bool}
    (h : Awaits p (behindWords sameLine v ++ ws) later)
    (habsent : ∀ w ∈ absent, w ∈ [.key, .value, .blockEnd] ∨ sameLine = true ∧ w = .blockEntry) :
    p.nodeUnless absent block indentless m s = (p.pushed s).node block indentless := by
  obtain ⟨w, ws', hv, hw, hentry⟩ := exists_behindWords_eq sameLine v
  rw [hv] at h
  refine nodeUnless_eq h fun hmem => ?_
  rcases habsent w hmem with hmem | ⟨hline, rfl⟩
  · exact hw hmem
  · exact hentry hline rfl

/-! ### Sequences -/

/-- The entries of a sequence, by induction: each gives way to the next one, or to the end. -/
lemma gives_entries (entry : Parse → Step) (next : Expect) {before : List Word}
    (hstep : ∀ q : Parse, q.state = next → q.step = entry q)
    (hitem : ∀ ⦃p v ws later⦄, Awaits p (.blockEntry :: (behindWords true v ++ ws)) later →
      entry p = (p.advance.pushed next).node true false)
    (hend : ∀ ⦃p⦄, Awaits p before (s :: later) → Gives (entry p) [.sequenceEnd] ws s later)
    {items : List Json} (hitems : ∀ v ∈ items, Parses v)
    (h : Awaits p (itemWords items ++ before) (s :: later)) :
    Gives (entry p) (itemItems items ++ [.sequenceEnd]) ws s later := by
  induction items generalizing p with
  | nil => exact hend h
  | cons v rest ih =>
    obtain ⟨hv, hrest⟩ := List.forall_mem_cons.1 hitems
    rw [itemWords, List.cons_append, List.cons_append, List.append_assoc] at h
    rw [hitem h, itemItems, List.append_assoc]
    refine (hv true false (h.advance.pushed next) (by simp)).trans fun q hq hs => ?_
    rw [hstep q hs]
    exact ih hrest hq

lemma gives_sequence {items : List Json} (hitems : ∀ v ∈ items, Parses v)
    (h : Awaits p (itemWords items ++ .blockEnd :: ws) (s :: later)) :
    Gives (p.blockEntry start) (itemItems items ++ [.sequenceEnd]) ws s later := by
  refine gives_entries (·.blockEntry start) (.blockEntry false start) ?_ ?_ ?_ hitems h
  · intro q hq
    rw [step, hq]
  · intro p v ws later h
    obtain ⟨_, stop, ts, ht⟩ := h.exists_token
    have hentry : p.blockEntry start = p.advance.nodeUnless [.blockEntry, .blockEnd] true false
        stop (.blockEntry false start) := by
      simp only [blockEntry, look, ht]
    rw [hentry, nodeUnless_behindWords h.advance (by simp)]
  · intro p h
    obtain ⟨m, stop, ts, ht⟩ := h.exists_token
    obtain ⟨hq, hs⟩ := h.advance.pop
    have hentry : p.blockEntry start = .event ⟨.sequenceEnd, m⟩ p.advance.pop := by
      simp only [blockEntry, look, ht]
    rw [hentry]
    exact .last hq hs

lemma gives_indentless {items : List Json} (hitems : ∀ v ∈ items, Parses v) (hw : w ≠ .blockEntry)
    (h : Awaits p (itemWords items ++ w :: ws) (s :: later)) :
    Gives p.indentlessEntry (itemItems items ++ [.sequenceEnd]) (w :: ws) s later := by
  refine gives_entries (·.indentlessEntry) .indentlessEntry ?_ ?_ ?_ hitems h
  · intro q hq
    rw [step, hq]
  · intro p v ws later h
    obtain ⟨_, stop, ts, ht⟩ := h.exists_token
    have hentry : p.indentlessEntry = p.advance.nodeUnless [.blockEntry, .key, .value, .blockEnd]
        true false stop .indentlessEntry := by
      simp only [indentlessEntry, look, ht]
    rw [hentry, nodeUnless_behindWords h.advance (by simp)]
  · intro p h
    obtain ⟨m, stop, ts, ht⟩ := h.exists_token
    obtain ⟨hq, hs⟩ := h.pop
    have hentry : p.indentlessEntry = .event ⟨.sequenceEnd, m⟩ p.pop := by
      simp only [indentlessEntry, look, ht]
    rw [hentry]
    exact .last hq hs

/-! ### Mappings -/

/-- The fields of a mapping, by induction: a key, its value, and what follows. -/
lemma gives_fields {fields : List (String × Json)} (hfields : ∀ f ∈ fields, Parses f.2)
    (h : Awaits p (fieldWords fields ++ .blockEnd :: ws) (s :: later)) :
    Gives (p.blockKey start) (fieldItems fields ++ [.mappingEnd]) ws s later := by
  induction fields generalizing p with
  | nil =>
    obtain ⟨m, stop, ts, ht⟩ := h.exists_token
    obtain ⟨hq, hs⟩ := h.advance.pop
    have hend : p.blockKey start = .event ⟨.mappingEnd, m⟩ p.advance.pop := by
      simp only [blockKey, look, ht]
    rw [hend]
    exact .last hq hs
  | cons f rest ih =>
    obtain ⟨hf, hrest⟩ := List.forall_mem_cons.1 hfields
    rw [fieldWords, List.cons_append, List.cons_append, List.cons_append, List.cons_append,
      List.append_assoc] at h
    obtain ⟨_, stop, ts, ht⟩ := h.exists_token
    have hkey : p.blockKey start = p.advance.nodeUnless [.key, .value, .blockEnd] true true stop
        (.blockValue start) := by
      simp only [blockKey, look, ht]
    rw [hkey, nodeUnless_eq h.advance (by simp [scalarWord])]
    have hscalar : Gives ((p.advance.pushed (.blockValue start)).node true true) _ _ _ _ :=
      node_scalar (h.advance.pushed (.blockValue start))
    have hitems : fieldItems (f :: rest) ++ [.mappingEnd] =
        [.scalar none none f.1.toList (Style.ofString f.1 == .plain)] ++
          (valueItems f.2 ++ (fieldItems rest ++ [.mappingEnd])) := by
      simp [fieldItems]
    rw [hitems]
    refine hscalar.trans fun q hq hs => ?_
    obtain ⟨_, stop, ts, ht⟩ := hq.exists_token
    have hvalue : q.step = q.advance.nodeUnless [.key, .value, .blockEnd] true true stop
        (.blockKey false start) := by
      rw [step, hs]
      simp only [blockValue, look, ht]
    rw [hvalue, nodeUnless_behindWords hq.advance (by simp)]
    have hnext : ∃ w ws', fieldWords rest ++ .blockEnd :: ws = w :: ws' ∧ w ≠ .blockEntry := by
      cases rest <;> exact ⟨_, _, rfl, by simp⟩
    refine (hf _ true (hq.advance.pushed (.blockKey false start)) fun _ => ⟨rfl, hnext⟩).trans
      fun r hr hs => ?_
    rw [step, hs]
    exact ih hrest hr

/-! ### Any value -/

lemma gives_emptySequence (h : Awaits p (.flowSequenceEnd :: ws) (s :: later)) :
    Gives (p.flowEntry true start) [.sequenceEnd] ws s later := by
  obtain ⟨m, stop, ts, ht⟩ := h.exists_token
  obtain ⟨hq, hs⟩ := h.advance.pop
  have hentry : p.flowEntry true start = .event ⟨.sequenceEnd, m⟩ p.advance.pop := by
    simp [flowEntry, afterComma, look, ht]
  rw [hentry]
  exact .last hq hs

lemma gives_emptyMapping (h : Awaits p (.flowMappingEnd :: ws) (s :: later)) :
    Gives (p.flowKey true start) [.mappingEnd] ws s later := by
  obtain ⟨m, stop, ts, ht⟩ := h.exists_token
  obtain ⟨hq, hs⟩ := h.advance.pop
  have hkey : p.flowKey true start = .event ⟨.mappingEnd, m⟩ p.advance.pop := by
    simp [flowKey, afterComma, look, ht]
  rw [hkey]
  exact .last hq hs

lemma parses_array {items : List Json} (hitems : ∀ v ∈ items, Parses v) : Parses (.array items) := by
  intro p s later ws sameLine indentless h hnext
  cases items with
  | nil =>
    exact node_open h (.flowSequence indentless) fun m =>
      gives_emptySequence (h.expecting (.flowEntry true m)).advance
  | cons v rest =>
    cases sameLine with
    | true =>
      have hwords : behindWords true (.array (v :: rest)) ++ ws =
          .blockSequenceStart :: (itemWords (v :: rest) ++ .blockEnd :: ws) := by
        simp [behindWords]
      rw [hwords] at h
      exact node_open h (.sequence indentless) fun m =>
        gives_sequence hitems (h.expecting (.blockEntry true m)).advance
    | false =>
      obtain ⟨rfl, w, ws, rfl, hw⟩ := hnext rfl
      exact node_open h .entry fun m => gives_indentless hitems hw (h.expecting .indentlessEntry)

lemma parses_object {fields : List (String × Json)} (hfields : ∀ f ∈ fields, Parses f.2) :
    Parses (.object fields) := by
  intro p s later ws sameLine indentless h _
  cases fields with
  | nil =>
    exact node_open h (.flowMapping indentless) fun m =>
      gives_emptyMapping (h.expecting (.flowKey true m)).advance
  | cons f rest =>
    have hwords : behindWords sameLine (.object (f :: rest)) ++ ws =
        .blockMappingStart :: (fieldWords (f :: rest) ++ .blockEnd :: ws) := by
      simp [behindWords]
    rw [hwords] at h
    exact node_open h (.mapping indentless) fun m =>
      gives_fields hfields (h.expecting (.blockKey true m)).advance

theorem parses {depth : Nat} {v : Json} (h : Storable depth v) : Parses v := by
  induction h with
  | null | bool | integer | string => exact fun _ _ _ _ _ _ h _ => node_scalar h
  | array _ ih => exact parses_array ih
  | object _ _ ih => exact parses_object ih

/-! ### The events of a mapping -/

lemma document_node (h : Awaits p (.blockMappingStart :: ws) [])
    (hinside : ∀ q, Awaits q (.blockMappingStart :: ws) [.documentEnd] →
      Gives (q.node true false) is ws' s' later') :
    Gives (p.document true) (.documentStart :: is) ws' s' later' := by
  obtain ⟨m, stop, ts, ht⟩ := h.exists_token
  have hdocument : p.document true = .event ⟨.documentStart, m⟩
      (({ p with handles := defaultHandles }.pushed .documentEnd).expecting .blockNode) := by
    simp [document, look, ht]
  rw [hdocument]
  exact .more (hinside _ ⟨h.words, congrArg _ h.later⟩)

lemma documentEnd_streamEnd (h : Awaits p [.streamEnd] []) :
    Gives p.documentEnd [.documentEnd, .streamEnd] [] .done [] := by
  obtain ⟨m, stop, ts, ht⟩ := h.exists_token
  have hend : p.documentEnd =
      .event ⟨.documentEnd, m⟩ { p with handles := [], state := .document false } := by
    simp [documentEnd, look, ht]
  have hstream : ({ p with handles := [], state := .document false } : Parse).step =
      .event ⟨.streamEnd, m⟩
        (({ p with handles := [], state := .document false } : Parse).advance.expecting .done) := by
    simp [step, document, look, ht]
  rw [hend]
  refine .more ?_
  rw [hstream]
  exact .last ⟨h.advance.words, h.later⟩ rfl

/-- The parser goes over a document that consists of a mapping. -/
lemma gives_document {fields : List (String × Json)} (hfields : ∀ f ∈ fields, Parses f.2)
    (h : Awaits p (.blockMappingStart :: fieldWords fields ++ [.blockEnd, .streamEnd]) []) :
    Gives (p.document true)
      (.documentStart :: (valueItems (.object fields) ++ [.documentEnd, .streamEnd])) [] .done
      [] := by
  refine document_node h fun q hq => ?_
  have hobject : Gives (q.node true false) (valueItems (.object fields)) [.streamEnd]
      .documentEnd [] :=
    node_open hq (.mapping false) fun m => gives_fields hfields (hq.expecting _).advance
  refine hobject.trans fun r hr hs => ?_
  rw [step, hs]
  exact documentEnd_streamEnd hr

/-! ### Numbers of pieces -/

lemma length_itemItems_le {items : List Json}
    (h : ∀ v ∈ items, ∀ sameLine,
      (valueItems v).length ≤ 2 * (behindWords sameLine v).length) :
    (itemItems items).length + 2 * items.length ≤ 2 * (itemWords items).length := by
  induction items with
  | nil => simp [itemItems, itemWords]
  | cons v rest ih =>
    obtain ⟨hv, hrest⟩ := List.forall_mem_cons.1 h
    have hle := hv true
    have hle' := ih hrest
    simp only [itemItems, itemWords, List.length_append, List.length_cons]
    omega

lemma length_fieldItems_le {fields : List (String × Json)}
    (h : ∀ f ∈ fields, ∀ sameLine,
      (valueItems f.2).length ≤ 2 * (behindWords sameLine f.2).length) :
    (fieldItems fields).length ≤ 2 * (fieldWords fields).length := by
  induction fields with
  | nil => simp [fieldItems]
  | cons f rest ih =>
    obtain ⟨hf, hrest⟩ := List.forall_mem_cons.1 h
    have hle := hf (!isSimpleKey f.1)
    have hle' := ih hrest
    simp only [fieldItems, fieldWords, List.cons_append, List.length_append, List.length_cons]
    omega

/-- There are at most two pieces of structure for each word. -/
lemma length_valueItems_le {depth : Nat} {v : Json} (h : Storable depth v) :
    ∀ sameLine, (valueItems v).length ≤ 2 * (behindWords sameLine v).length := by
  induction h with
  | null | bool | integer | string => simp [valueItems, behindWords]
  | @array _ items _ ih =>
    intro sameLine
    have hle := length_itemItems_le ih
    cases items with
    | nil => simp [valueItems, behindWords, itemItems]
    | cons v rest =>
      simp only [List.length_cons] at hle
      cases sameLine <;> simp [valueItems, behindWords] <;> omega
  | @object _ fields _ _ ih =>
    intro sameLine
    have hle := length_fieldItems_le ih
    cases fields with
    | nil => simp [valueItems, behindWords, fieldItems]
    | cons f rest =>
      simp [valueItems, behindWords]
      omega

end Parse

/-- The events of the text of a mapping. -/
theorem events_writeFields {depth : Nat} {f : String × Json} {rest : List (String × Json)}
    (h : ∀ g ∈ f :: rest, Storable depth g.2) :
    ∃ es, events (writeFields 0 (f :: rest)) = (es, none) ∧ es.map Event.item =
      .documentStart :: (valueItems (.object (f :: rest)) ++ [.documentEnd, .streamEnd]) := by
  obtain ⟨ts, hts, hwords⟩ := tokens_writeFields h
  obtain ⟨t, ts, rfl, -, hwords⟩ := List.map_eq_cons_iff.1 hwords
  obtain ⟨es, q, hes, hitems, -, hstate⟩ := Parse.gives_document (p := { tokens := ts })
    (fun g hg => Parse.parses (h g hg)) ⟨hwords, rfl⟩
  have hle := Parse.length_fieldItems_le fun g hg => Parse.length_valueItems_le (h g hg)
  have hlength := congrArg List.length hwords
  have hcount := congrArg List.length hitems
  simp [valueItems] at hlength hcount
  obtain ⟨fuel, hfuel⟩ : ∃ fuel, 4 * ts.length + 10 = es.length + (fuel + 1) :=
    ⟨4 * ts.length + 10 - es.length - 1, by omega⟩
  have hdone : Parse.eventsFrom none (fuel + 1) q = ([], none) := by
    rw [Parse.eventsFrom, Parse.step, hstate]
    simp
  have hstep : Parse.Yields (Parse.step { tokens := ts }) es q := hes
  refine ⟨es, ?_, hitems⟩
  rw [events, hts]
  simp only [hfuel, hstep.eventsFrom_eq, hdone, List.append_nil]

end Depot.Yaml
