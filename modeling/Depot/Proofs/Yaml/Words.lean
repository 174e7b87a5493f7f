import Depot.Proofs.Json.Storable
import Depot.Proofs.Yaml.Integer
import Depot.Proofs.Yaml.Node

/-!
# The words of a value

The scanner takes the text of a value as the words that `behindWords` lists, and is then in front of
what stands below it (`scans`): one case for each kind of value, and one induction over the items of
a sequence and one over the fields of a mapping.
-/

namespace Depot.Yaml

open Json (Storable)

/-! ### Words -/

mutual

/-- The words of what stands behind a dash or a colon. The items of a sequence that begins below a
key are not a block of their own. -/
def behindWords (sameLine : Bool) : Json → List Word
  | .null => [.scalar "null".toList true]
  | .bool b => [.scalar (if b then "true" else "false").toList true]
  | .number n => [.scalar (spellNumber n) true]
  | .string s => [scalarWord s]
  | .array items =>
    if items.isEmpty then [.flowSequenceStart, .flowSequenceEnd]
    else if sameLine then .blockSequenceStart :: itemWords items ++ [.blockEnd]
    else itemWords items
  | .object fields =>
    if fields.isEmpty then [.flowMappingStart, .flowMappingEnd]
    else .blockMappingStart :: fieldWords fields ++ [.blockEnd]

/-- The words of the items of a sequence. -/
def itemWords : List Json → List Word
  | [] => []
  | v :: rest => .blockEntry :: behindWords true v ++ itemWords rest

/-- The words of the fields of a mapping. -/
def fieldWords : List (String × Json) → List Word
  | [] => []
  | (key, v) :: rest =>
    .key :: scalarWord key :: .value :: behindWords (!isSimpleKey key) v ++ fieldWords rest

end

/-! ### The first line of a collection -/

lemma endsWord_writeBehind (n : Nat) (sameLine : Bool) (v : Json) (rest : List Char) :
    Style.endsWord (writeBehind n sameLine v ++ rest) = true := by
  cases v with
  | null => rfl
  | bool b => cases b <;> rfl
  | number | string => rfl
  | array items =>
    unfold writeBehind
    split
    · rfl
    · split <;> rfl
  | object fields =>
    unfold writeBehind
    split
    · rfl
    · split <;> rfl

/-- The lines of a sequence, without the spaces in front of the first one. -/
def itemLines (n : Nat) (v : Json) (rest : List Json) : List Char :=
  '-' :: (writeBehind n true v ++ writeItems n rest)

/-- The lines of a field, without the spaces in front of the first one. -/
def fieldLine (n : Nat) (key : String) (v : Json) : List Char :=
  if isSimpleKey key then spell (n + 2) key ++ ':' :: writeBehind n false v
  else '?' :: ' ' :: (endLine (spell (n + 2) key) ++ (spaces n ++ ':' :: writeBehind n true v))

/-- The lines of a mapping, without the spaces in front of the first one. -/
def fieldLines (n : Nat) (f : String × Json) (rest : List (String × Json)) : List Char :=
  fieldLine n f.1 f.2 ++ writeFields n rest

lemma writeItems_cons (n : Nat) (v : Json) (rest : List Json) :
    writeItems n (v :: rest) = spaces n ++ itemLines n v rest := by
  simp [writeItems, itemLines]

lemma writeFields_cons (n : Nat) (f : String × Json) (rest : List (String × Json)) :
    writeFields n (f :: rest) = spaces n ++ fieldLines n f rest := by
  simp only [writeFields, fieldLines, fieldLine]
  split <;> simp

lemma itemLines_nil (n : Nat) (v : Json) (tail : List Char) :
    itemLines n v [] ++ tail = '-' :: (writeBehind n true v ++ tail) := by
  simp [itemLines, writeItems]

lemma itemLines_cons (n : Nat) (v w : Json) (rest : List Json) (tail : List Char) :
    itemLines n v (w :: rest) ++ tail =
      '-' :: (writeBehind n true v ++ (spaces n ++ (itemLines n w rest ++ tail))) := by
  rw [itemLines, writeItems_cons]
  simp

lemma fieldLines_nil (n : Nat) (f : String × Json) (tail : List Char) :
    fieldLines n f [] ++ tail = fieldLine n f.1 f.2 ++ tail := by
  simp [fieldLines, writeFields]

lemma fieldLines_cons (n : Nat) (f g : String × Json) (rest : List (String × Json))
    (tail : List Char) : fieldLines n f (g :: rest) ++ tail =
      fieldLine n f.1 f.2 ++ (spaces n ++ (fieldLines n g rest ++ tail)) := by
  rw [fieldLines, writeFields_cons]
  simp

lemma beginsToken_itemLines (n : Nat) (v : Json) (rest : List Json) (tail : List Char) :
    BeginsToken (itemLines n v rest ++ tail) := by
  simp [itemLines, NotAhead, isBlank, isBreak]

lemma beginsToken_fieldLines (n : Nat) (f : String × Json) (rest : List (String × Json))
    (tail : List Char) : BeginsToken (fieldLines n f rest ++ tail) := by
  rw [fieldLines, fieldLine, List.append_assoc]
  split
  · rw [List.append_assoc]
    exact beginsToken_spell _ _ _
  · simp [NotAhead, isBlank, isBreak]

namespace Scan

variable {s : Scan} {b : Bool} {ws : List Word} {i : Int} {is : List Int} {c k n : Nat}
  {cs tail : List Char} {v : Json}

/-! ### Values -/

/-- The scanner goes from behind a dash or a colon over a value to what stands below. -/
def Scans (v : Json) : Prop :=
  ∀ ⦃s b ws is⦄ ⦃n c k : Nat⦄ ⦃tail⦄ (sameLine : Bool),
    Stands s b ws n is c (writeBehind n sameLine v ++ (spaces k ++ tail)) → n ≤ c →
    (sameLine = true → b = true ∧ c = n + 1) → k ≤ n → BeginsToken tail →
    ∃ t, Steps s t ∧ Reaches t true (ws ++ behindWords sameLine v) n is k tail

/-- A plain text behind a dash or a colon. -/
lemma Stands.plain (h : Stands s b ws n is c (' ' :: (cs ++ '\n' :: (spaces k ++ tail))))
    (hcs : IsPlain cs) (hc : n ≤ c) (hk : k ≤ n) (htail : BeginsToken tail) :
    ∃ t, Steps s t ∧ Reaches t true (ws ++ [.scalar cs true]) n is k tail := by
  have hreaches := h.reaches_space (hcs.beginsToken _)
  obtain ⟨t, ht, hreaches⟩ := hreaches.plain hcs (by omega) hk htail
  exact ⟨t, .single ht, hreaches⟩

/-- An empty collection behind a dash or a colon. -/
lemma Stands.empty {x y : Char} {w w' : Word}
    (h : Stands s b ws n is c (' ' :: x :: y :: '\n' :: (spaces k ++ tail)))
    (hxy : Encloses x y w w') (hc : n ≤ c) (htail : BeginsToken tail) :
    ∃ t, Steps s t ∧ Reaches t true (ws ++ [w, w']) n is k tail := by
  have hbegins : BeginsToken (x :: y :: '\n' :: (spaces k ++ tail)) := by
    cases hxy <;> simp [NotAhead, isBlank, isBreak]
  exact (h.reaches_space hbegins).empty (by omega) hxy htail

/-! ### Sequences -/

lemma Reaches.item (hv : Scans v)
    (h : Reaches s true ws i is n ('-' :: (writeBehind n true v ++ (spaces k ++ tail))))
    (hi : i ≤ n) (hk : k ≤ n) (htail : BeginsToken tail) :
    ∃ t, Steps s t ∧ Reaches t true
      (ws ++ opening .blockSequenceStart i n ++ .blockEntry :: behindWords true v) n
      (around i is n) k tail := by
  obtain ⟨t, ht, hstands⟩ := h.dash hi (endsWord_writeBehind n true v _)
  obtain ⟨u, hu, hreaches⟩ := hv true hstands (by omega) (fun _ => ⟨rfl, rfl⟩) hk htail
  refine ⟨u, .head ht hu, ?_⟩
  simpa using hreaches

/-- The items of a sequence, by induction: behind the first one the sequence is open. -/
lemma Reaches.items {items : List Json} (hitems : ∀ w ∈ v :: items, Scans w)
    (h : Reaches s true ws i is n (itemLines n v items ++ (spaces k ++ tail))) (hi : i ≤ n)
    (hk : k ≤ n) (htail : BeginsToken tail) :
    ∃ t, Steps s t ∧ Reaches t true
      (ws ++ opening .blockSequenceStart i n ++ itemWords (v :: items)) n (around i is n) k
      tail := by
  obtain ⟨hv, hrest⟩ := List.forall_mem_cons.1 hitems
  induction items generalizing s ws i is v with
  | nil =>
    rw [itemLines_nil] at h
    simpa [itemWords] using h.item hv hi hk htail
  | cons w rest ih =>
    rw [itemLines_cons] at h
    obtain ⟨t, ht, hreaches⟩ := h.item hv hi (Nat.le_refl n) (beginsToken_itemLines _ _ _ _)
    obtain ⟨hw, hrest'⟩ := List.forall_mem_cons.1 hrest
    obtain ⟨u, hu, hreaches⟩ := ih hrest hreaches (Int.le_refl n) hw hrest'
    refine ⟨u, ht.trans hu, ?_⟩
    simpa [itemWords, opening, around] using hreaches

/-! ### Mappings -/

lemma Reaches.field {key : String} (hv : Scans v)
    (h : Reaches s true ws i is n (fieldLine n key v ++ (spaces k ++ tail))) (hi : i ≤ n)
    (hk : k ≤ n) (htail : BeginsToken tail) :
    ∃ t, Steps s t ∧ Reaches t true
      (ws ++ opening .blockMappingStart i n ++
        .key :: scalarWord key :: .value :: behindWords (!isSimpleKey key) v) n
      (around i is n) k tail := by
  unfold fieldLine at h
  split at h
  next hkey =>
    rw [List.append_assoc] at h
    obtain ⟨t, c, ht, hc, hstands⟩ := h.simpleKey hi hkey (endsWord_writeBehind n false v _)
    obtain ⟨u, hu, hreaches⟩ := hv false hstands hc nofun hk htail
    refine ⟨u, ht.trans hu, ?_⟩
    simpa [hkey] using hreaches
  next hkey =>
    have htext : '?' :: ' ' :: (endLine (spell (n + 2) key) ++
          (spaces n ++ ':' :: writeBehind n true v)) ++ (spaces k ++ tail) =
        '?' :: ' ' :: (endLine (spell (n + 2) key) ++
          (spaces n ++ ':' :: (writeBehind n true v ++ (spaces k ++ tail)))) := by
      simp
    rw [htext] at h
    obtain ⟨t, ht, hstands⟩ := h.longKey hi (endsWord_writeBehind n true v _)
    obtain ⟨u, hu, hreaches⟩ := hv true hstands (by omega) (fun _ => ⟨rfl, rfl⟩) hk htail
    refine ⟨u, ht.trans hu, ?_⟩
    simpa [hkey] using hreaches

/-- The fields of a mapping, by induction: behind the first one the mapping is open. -/
lemma Reaches.fields {f : String × Json} {fields : List (String × Json)}
    (hfields : ∀ g ∈ f :: fields, Scans g.2)
    (h : Reaches s true ws i is n (fieldLines n f fields ++ (spaces k ++ tail))) (hi : i ≤ n)
    (hk : k ≤ n) (htail : BeginsToken tail) :
    ∃ t, Steps s t ∧ Reaches t true
      (ws ++ opening .blockMappingStart i n ++ fieldWords (f :: fields)) n (around i is n) k
      tail := by
  obtain ⟨hf, hrest⟩ := List.forall_mem_cons.1 hfields
  induction fields generalizing s ws i is f with
  | nil =>
    rw [fieldLines_nil] at h
    simpa [fieldWords] using h.field hf hi hk htail
  | cons g rest ih =>
    rw [fieldLines_cons] at h
    obtain ⟨t, ht, hreaches⟩ := h.field hf hi (Nat.le_refl n) (beginsToken_fieldLines _ _ _ _)
    obtain ⟨hg, hrest'⟩ := List.forall_mem_cons.1 hrest
    obtain ⟨u, hu, hreaches⟩ := ih hrest hreaches (Int.le_refl n) hg hrest'
    refine ⟨u, ht.trans hu, ?_⟩
    simpa [fieldWords, opening, around] using hreaches

/-! ### Any value -/

lemma scans_array {items : List Json} (hitems : ∀ v ∈ items, Scans v) : Scans (.array items) := by
  intro s b ws is n c k tail sameLine h hc hline hk htail
  cases items with
  | nil => simpa [behindWords] using h.empty .sequence hc htail
  | cons v rest =>
    cases sameLine with
    | true =>
      obtain ⟨rfl, rfl⟩ := hline rfl
      have htext : writeBehind n true (.array (v :: rest)) = ' ' :: itemLines (n + 2) v rest := by
        simp [writeBehind, writeItems_cons, spaces]
      rw [htext] at h
      have hreaches := h.reaches_space (beginsToken_itemLines _ _ _ _)
      obtain ⟨t, ht, hreaches⟩ := hreaches.items hitems (by omega) (by omega) htail
      have hlt : (n : Int) < (n + 2 : Nat) := by omega
      rw [around, if_pos hlt, opening, if_pos hlt] at hreaches
      refine ⟨t, ht, ?_⟩
      simpa [behindWords] using hreaches.close (by omega)
    | false =>
      have htext : writeBehind n false (.array (v :: rest)) =
          '\n' :: (spaces n ++ itemLines n v rest) := by
        simp [writeBehind, writeItems_cons]
      rw [htext, List.cons_append, List.append_assoc] at h
      have hreaches := h.reaches_line (beginsToken_itemLines _ _ _ _)
      obtain ⟨t, ht, hreaches⟩ := hreaches.items hitems (Int.le_refl n) hk htail
      refine ⟨t, ht, ?_⟩
      simpa [behindWords, opening, around] using hreaches

lemma scans_object {fields : List (String × Json)} (hfields : ∀ f ∈ fields, Scans f.2) :
    Scans (.object fields) := by
  intro s b ws is n c k tail sameLine h hc hline hk htail
  cases fields with
  | nil => simpa [behindWords] using h.empty .mapping hc htail
  | cons f rest =>
    have hreaches : Reaches s true ws n is (n + 2)
        (fieldLines (n + 2) f rest ++ (spaces k ++ tail)) := by
      cases sameLine with
      | true =>
        obtain ⟨rfl, rfl⟩ := hline rfl
        have htext : writeBehind n true (.object (f :: rest)) =
            ' ' :: fieldLines (n + 2) f rest := by
          simp [writeBehind, writeFields_cons, spaces]
        rw [htext] at h
        exact h.reaches_space (beginsToken_fieldLines _ _ _ _)
      | false =>
        have htext : writeBehind n false (.object (f :: rest)) =
            '\n' :: (spaces (n + 2) ++ fieldLines (n + 2) f rest) := by
          simp [writeBehind, writeFields_cons]
        rw [htext, List.cons_append, List.append_assoc] at h
        exact h.reaches_line (beginsToken_fieldLines _ _ _ _)
    obtain ⟨t, ht, hreaches⟩ := hreaches.fields hfields (by omega) (by omega) htail
    have hlt : (n : Int) < (n + 2 : Nat) := by omega
    rw [around, if_pos hlt, opening, if_pos hlt] at hreaches
    refine ⟨t, ht, ?_⟩
    simpa [behindWords] using hreaches.close (by omega)

/-- The scanner takes any storable value as its words. -/
theorem scans {depth : Nat} (h : Storable depth v) : Scans v := by
  induction h with
  | null =>
    intro s b ws is n c k tail sameLine h hc hline hk htail
    exact h.plain (isPlain_of_allowsPlain (by decide) (by decide)) hc hk htail
  | bool depth b =>
    intro s _ ws is n c k tail sameLine h hc hline hk htail
    cases b with
    | true => exact h.plain (isPlain_of_allowsPlain (by decide) (by decide)) hc hk htail
    | false => exact h.plain (isPlain_of_allowsPlain (by decide) (by decide)) hc hk htail
  | integer depth i =>
    intro s b ws is n c k tail sameLine h hc hline hk htail
    rw [writeBehind, List.cons_append, List.cons_append, List.append_assoc] at h
    exact h.plain (isPlain_integer i) hc hk htail
  | string depth v =>
    intro s b ws is n c k tail sameLine h hc hline hk htail
    have hreaches := h.reaches_space (beginsToken_endLine_spell _ _ _)
    obtain ⟨t, ht, hreaches⟩ := hreaches.scalar (by omega) hk htail
    exact ⟨t, .single ht, hreaches⟩
  | array _ ih => exact scans_array ih
  | object _ _ ih => exact scans_object ih

end Scan

/-! ### Characters and numbers of words -/

section

variable {v : Json} {n : Nat}

lemma isShown_of_mem_spaces : ∀ c ∈ spaces n, Style.isShown c = true := by
  intro c hc
  rw [List.eq_of_mem_replicate hc]
  rfl

lemma isShown_of_mem_writeItems {items : List Json}
    (h : ∀ v ∈ items, ∀ n sameLine, ∀ c ∈ writeBehind n sameLine v, Style.isShown c = true) :
    ∀ c ∈ writeItems n items, Style.isShown c = true := by
  induction items with
  | nil => exact nofun
  | cons v rest ih =>
    obtain ⟨hv, hrest⟩ := List.forall_mem_cons.1 h
    simp only [writeItems, List.forall_mem_append, List.forall_mem_cons]
    exact ⟨⟨isShown_of_mem_spaces, rfl, hv n true⟩, ih hrest⟩

lemma isShown_of_mem_writeFields {fields : List (String × Json)}
    (h : ∀ f ∈ fields, ∀ n sameLine, ∀ c ∈ writeBehind n sameLine f.2, Style.isShown c = true) :
    ∀ c ∈ writeFields n fields, Style.isShown c = true := by
  induction fields with
  | nil => exact nofun
  | cons f rest ih =>
    obtain ⟨hf, hrest⟩ := List.forall_mem_cons.1 h
    simp only [writeFields, List.forall_mem_append]
    refine ⟨⟨isShown_of_mem_spaces, ?_⟩, ih hrest⟩
    split
    · simp only [List.forall_mem_append, List.forall_mem_cons]
      exact ⟨isShown_of_mem_spell, rfl, hf n false⟩
    · simp only [List.cons_append, List.forall_mem_append, List.forall_mem_cons]
      exact ⟨rfl, rfl, ⟨isShown_of_mem_endLine isShown_of_mem_spell, isShown_of_mem_spaces⟩, rfl,
        hf n true⟩

/-- Nothing that is written needs an escape. -/
lemma isShown_of_mem_writeBehind {depth : Nat} (h : Storable depth v) :
    ∀ n sameLine, ∀ c ∈ writeBehind n sameLine v, Style.isShown c = true := by
  induction h with
  | null =>
    have hnull : ∀ c ∈ " null\n".toList, Style.isShown c = true := List.all_eq_true.1 rfl
    exact fun _ _ => hnull
  | bool _ b =>
    have htrue : ∀ c ∈ " true\n".toList, Style.isShown c = true := List.all_eq_true.1 rfl
    have hfalse : ∀ c ∈ " false\n".toList, Style.isShown c = true := List.all_eq_true.1 rfl
    intro n sameLine
    cases b with
    | true => exact htrue
    | false => exact hfalse
  | integer _ i =>
    intro n sameLine
    have hplain := (isPlain_integer i).shown
    simp only [writeBehind, List.cons_append, List.forall_mem_cons, List.forall_mem_append]
    exact ⟨rfl, hplain, rfl, nofun⟩
  | string =>
    intro n sameLine
    exact List.forall_mem_cons.2 ⟨rfl, isShown_of_mem_endLine isShown_of_mem_spell⟩
  | array _ ih =>
    intro n sameLine
    unfold writeBehind
    split
    · exact List.all_eq_true.1 rfl
    split
    · exact List.forall_mem_cons.2 ⟨rfl, fun c hc =>
        isShown_of_mem_writeItems ih c (List.mem_of_mem_drop hc)⟩
    · exact List.forall_mem_cons.2 ⟨rfl, isShown_of_mem_writeItems ih⟩
  | object _ _ ih =>
    intro n sameLine
    unfold writeBehind
    split
    · exact List.all_eq_true.1 rfl
    split
    · exact List.forall_mem_cons.2 ⟨rfl, fun c hc =>
        isShown_of_mem_writeFields ih c (List.mem_of_mem_drop hc)⟩
    · exact List.forall_mem_cons.2 ⟨rfl, isShown_of_mem_writeFields ih⟩

lemma controlOffset?_eq_none {cs : List Char} (h : ∀ c ∈ cs, Style.isShown c = true)
    (offset : Nat) : controlOffset? offset cs = none := by
  induction cs generalizing offset with
  | nil => rfl
  | cons c cs ih =>
    obtain ⟨hc, hcs⟩ := List.forall_mem_cons.1 h
    rw [controlOffset?, if_pos (isAllowed_of_isShown hc), ih hcs]

/-! ### Numbers of words -/

/-- A text has at most three words for each character, and none of them is the end of the stream. -/
structure Carries (cs : List Char) (ws : List Word) : Prop where
  length_le : ws.length ≤ 3 * cs.length
  streamEnd_not_mem : .streamEnd ∉ ws

namespace Carries

variable {cs cs' : List Char} {ws ws' : List Word}

lemma scalar {text : List Char} {plain : Bool} (hcs : cs ≠ []) :
    Carries cs [.scalar text plain] := by
  have hpos := List.length_pos_iff.2 hcs
  refine ⟨?_, by simp⟩
  rw [List.length_singleton]
  omega

lemma append (h : Carries cs ws) (h' : Carries cs' ws') : Carries (cs ++ cs') (ws ++ ws') := by
  have hle := h.length_le
  have hle' := h'.length_le
  refine ⟨?_, by simp [h.streamEnd_not_mem, h'.streamEnd_not_mem]⟩
  simp only [List.length_append]
  omega

lemma prepend (h : Carries cs ws) (front : List Char) : Carries (front ++ cs) ws := by
  have hle := h.length_le
  refine ⟨?_, h.streamEnd_not_mem⟩
  rw [List.length_append]
  omega

lemma enclose (h : Carries cs ws) (c : Char) (w w' : Word) (hw : .streamEnd ∉ [w, w']) :
    Carries (c :: cs) (w :: ws ++ [w']) := by
  have hle := h.length_le
  simp only [List.mem_cons, List.not_mem_nil, or_false, not_or] at hw
  refine ⟨?_, by simp [h.streamEnd_not_mem, hw]⟩
  simp only [List.length_cons, List.length_append, List.length_nil]
  omega

end Carries

lemma carries_item {v : Json} {n : Nat} (h : Carries (writeBehind n true v) (behindWords true v)) :
    Carries ('-' :: writeBehind n true v) (.blockEntry :: behindWords true v) := by
  have hdash : Carries ['-'] [.blockEntry] := ⟨by decide, by decide⟩
  exact hdash.append h

lemma carries_items {items : List Json} {v : Json} {n : Nat}
    (h : ∀ w ∈ v :: items, ∀ n sameLine,
      Carries (writeBehind n sameLine w) (behindWords sameLine w)) :
    Carries (itemLines n v items) (itemWords (v :: items)) := by
  obtain ⟨hv, hrest⟩ := List.forall_mem_cons.1 h
  have hitem := carries_item (hv n true)
  induction items generalizing v with
  | nil => simpa [itemLines, itemWords, writeItems] using hitem
  | cons w rest ih =>
    obtain ⟨hw, hrest'⟩ := List.forall_mem_cons.1 hrest
    have hlines := (ih hrest hw hrest' (carries_item (hw n true))).prepend (spaces n)
    have hall := hitem.append hlines
    rw [← writeItems_cons] at hall
    exact hall

lemma carries_field {f : String × Json} {n : Nat}
    (h : ∀ n sameLine, Carries (writeBehind n sameLine f.2) (behindWords sameLine f.2)) :
    Carries (fieldLine n f.1 f.2)
      (.key :: scalarWord f.1 :: .value :: behindWords (!isSimpleKey f.1) f.2) := by
  have hcolon : Carries [':'] [.key, scalarWord f.1, .value] := ⟨by simp, by simp [scalarWord]⟩
  unfold fieldLine
  split
  next hkey =>
    rw [hkey]
    exact (hcolon.append (h n false)).prepend (spell (n + 2) f.1)
  next hkey =>
    rw [eq_false_of_ne_true hkey]
    have hvalue := (hcolon.append (h n true)).prepend
      ('?' :: ' ' :: endLine (spell (n + 2) f.1) ++ spaces n)
    simpa using hvalue

lemma carries_fields {fields : List (String × Json)} {f : String × Json} {n : Nat}
    (h : ∀ g ∈ f :: fields, ∀ n sameLine,
      Carries (writeBehind n sameLine g.2) (behindWords sameLine g.2)) :
    Carries (fieldLines n f fields) (fieldWords (f :: fields)) := by
  obtain ⟨hf, hrest⟩ := List.forall_mem_cons.1 h
  have hfield : Carries (fieldLine n f.1 f.2) _ := carries_field hf
  induction fields generalizing f with
  | nil => simpa [fieldLines, fieldWords, writeFields] using hfield
  | cons g rest ih =>
    obtain ⟨hg, hrest'⟩ := List.forall_mem_cons.1 hrest
    have hlines := (ih hrest hg hrest' (carries_field hg)).prepend (spaces n)
    have hall := hfield.append hlines
    rw [← writeFields_cons] at hall
    simpa [fieldWords, fieldLines] using hall

/-- The text of a value carries its words. -/
lemma carries_behindWords {depth : Nat} (h : Storable depth v) :
    ∀ n sameLine, Carries (writeBehind n sameLine v) (behindWords sameLine v) := by
  induction h with
  | null => exact fun n sameLine => .scalar (by simp [writeBehind])
  | bool _ b => cases b <;> exact fun n sameLine => .scalar (by simp [writeBehind])
  | integer => exact fun n sameLine => .scalar (by simp [writeBehind])
  | string => exact fun n sameLine => .scalar (by simp [writeBehind])
  | @array _ items _ ih =>
    intro n sameLine
    cases items with
    | nil => exact ⟨by simp [behindWords, writeBehind], by simp [behindWords]⟩
    | cons v rest =>
      cases sameLine with
      | true =>
        have hlines : Carries (itemLines (n + 2) v rest) (itemWords (v :: rest)) :=
          carries_items ih
        simpa [behindWords, writeBehind, writeItems_cons, spaces] using
          hlines.enclose ' ' .blockSequenceStart .blockEnd (by decide)
      | false =>
        have hlines : Carries (itemLines n v rest) (itemWords (v :: rest)) := carries_items ih
        simpa [behindWords, writeBehind, writeItems_cons] using
          hlines.prepend ('\n' :: spaces n)
  | @object _ fields _ _ ih =>
    intro n sameLine
    cases fields with
    | nil => exact ⟨by simp [behindWords, writeBehind], by simp [behindWords]⟩
    | cons f rest =>
      have hlines : Carries (fieldLines (n + 2) f rest) (fieldWords (f :: rest)) :=
        carries_fields ih
      cases sameLine with
      | true =>
        simpa [behindWords, writeBehind, writeFields_cons, spaces] using
          hlines.enclose ' ' .blockMappingStart .blockEnd (by decide)
      | false =>
        simpa [behindWords, writeBehind, writeFields_cons] using
          (hlines.prepend (spaces (n + 2))).enclose '\n' .blockMappingStart .blockEnd (by decide)

end

/-! ### The tokens of a mapping -/

/-- At the end of a text, the mapping without indentation is closed. -/
lemma Scan.Reaches.end {s : Scan} {b : Bool} {ws : List Word} (h : s.Reaches b ws 0 [-1] 0 []) :
    ∃ k ts e, Scan.Runs k s (ts ++ [e]) ∧ ts.map Token.word = ws ++ [.blockEnd] ∧
      e.word = .streamEnd := by
  obtain ⟨t, ht, -, hfetch⟩ := h.fetch_eq (Int.le_refl 0)
  obtain ⟨q, m, rfl, hm, rfl⟩ := ht
  have hend : s.fetch = .ok
      { cursor := ⟨[], m⟩, queue := q ++ [⟨.blockEnd, m, m⟩] ++ [⟨.streamEnd, m, m⟩]
        keyAllowed := false } := by
    rw [hfetch]
    simp [Scan.dispatch, Scan.fetchEnd, Scan.mark, hm, Scan.unroll, Scan.inFlow,
      Scan.unroll.close, Scan.dropKey, Scan.push]
  exact ⟨1, _, _, .step hend (Nat.zero_le _) (.done rfl rfl), by simp, rfl⟩

/-- The tokens of the text of a mapping. -/
theorem tokens_writeFields {depth : Nat} {f : String × Json} {rest : List (String × Json)}
    (h : ∀ g ∈ f :: rest, Storable depth g.2) :
    ∃ ts, tokens (writeFields 0 (f :: rest)) = (ts, none) ∧ ts.map Token.word =
      .streamStart :: .blockMappingStart :: fieldWords (f :: rest) ++ [.blockEnd, .streamEnd] := by
  have htext : writeFields 0 (f :: rest) = fieldLines 0 f rest := by
    simp [writeFields_cons, spaces]
  have hshown : ∀ c ∈ writeFields 0 (f :: rest), Style.isShown c = true :=
    isShown_of_mem_writeFields fun g hg => isShown_of_mem_writeBehind (h g hg)
  have hcarries : Carries (fieldLines 0 f rest) (fieldWords (f :: rest)) :=
    carries_fields fun g hg => carries_behindWords (h g hg)
  rw [htext] at hshown ⊢
  have hbegins : BeginsToken (fieldLines 0 f rest) := by
    simpa using beginsToken_fieldLines 0 f rest []
  have hstart : Scan.Reaches
      { cursor := ⟨fieldLines 0 f rest, {}⟩, queue := [⟨.streamStart, {}, {}⟩] } true
      [.streamStart] (-1) [] 0 (fieldLines 0 f rest) :=
    Scan.reaches_of_start rfl rfl hbegins (by simp)
  have hend : fieldLines 0 f rest = fieldLines 0 f rest ++ (spaces 0 ++ []) := by simp [spaces]
  rw [hend] at hstart
  obtain ⟨t, ht, hreaches⟩ := hstart.fields (fun g hg => Scan.scans (h g hg)) (by decide)
    (Nat.le_refl 0) (fun a ha => absurd ha (by simp))
  obtain ⟨k, ts, e, hruns, hts, he⟩ := hreaches.end
  obtain ⟨k, hruns⟩ := hruns.of_steps ht
  rw [← hend] at hruns
  refine ⟨ts ++ [e], tokens_eq (controlOffset?_eq_none hshown 0) hruns ?_ he ?_, ?_⟩
  · intro a ha heq
    have hmem : .streamEnd ∈ ts.map Token.word := heq ▸ List.mem_map_of_mem ha
    rw [hts] at hmem
    simp [hcarries.streamEnd_not_mem, Scan.opening] at hmem
  · have hlength := congrArg List.length hts
    have hle := hcarries.length_le
    simp [Scan.opening] at hlength
    omega
  · simp [hts, he, Scan.opening]

end Depot.Yaml
