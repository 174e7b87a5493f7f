import Depot.Path
import Mathlib.Data.List.Basic
import Mathlib.Tactic.Lemma

/-!
# Components of paths

What joining two paths and taking the parent of one make of the components. Whether a path is
absolute can be told from its components, so that equivalent paths are both absolute or both
relative, and joining the same path to them gives equivalent ones (`Equiv.join`). They are spelled
with the same pieces, up to those that count for nothing (`equiv_iff`).
-/

namespace Depot

namespace Path

variable {p q d : Path} {cs a b : List Char} {xs : List (List Char)}

/-! ### Pieces -/

lemma pieces_ne_nil (cs : List Char) : pieces cs ≠ [] := by
  cases cs with
  | nil => simp [pieces]
  | cons c cs =>
    rw [pieces]
    split_ifs
    · simp
    · split <;> simp

lemma pieces_slash (cs : List Char) : pieces ('/' :: cs) = [] :: pieces cs := by
  rw [pieces, if_pos rfl]

lemma pieces_cons {c : Char} (hc : c ≠ '/') {x : List Char} {xs : List (List Char)}
    (h : pieces cs = x :: xs) : pieces (c :: cs) = (c :: x) :: xs := by
  rw [pieces, if_neg hc, h]

lemma pieces_append_slash (a b : List Char) : pieces (a ++ '/' :: b) = pieces a ++ pieces b := by
  induction a with
  | nil => rw [List.nil_append, pieces_slash, pieces, List.singleton_append]
  | cons c a ih =>
    rw [List.cons_append]
    by_cases hc : c = '/'
    · subst hc
      rw [pieces_slash, pieces_slash, ih, List.cons_append]
    · obtain ⟨x, xs, hx⟩ := List.exists_cons_of_ne_nil (pieces_ne_nil a)
      rw [hx, List.cons_append] at ih
      rw [pieces_cons hc hx, pieces_cons hc ih, List.cons_append]

lemma slash_notMem_of_mem_pieces {x : List Char} (hx : x ∈ pieces cs) : '/' ∉ x := by
  induction cs generalizing x with
  | nil => simp_all [pieces]
  | cons c cs ih =>
    by_cases hc : c = '/'
    · subst hc
      rw [pieces_slash, List.mem_cons] at hx
      rcases hx with rfl | hx
      · simp
      · exact ih hx
    · obtain ⟨y, ys, hy⟩ := List.exists_cons_of_ne_nil (pieces_ne_nil cs)
      rw [pieces_cons hc hy, List.mem_cons] at hx
      rw [hy] at ih
      rcases hx with rfl | hx
      · have hnot := ih List.mem_cons_self
        simp [hnot, Ne.symm hc]
      · exact ih (List.mem_cons_of_mem _ hx)

lemma pieces_of_notMem (h : '/' ∉ cs) : pieces cs = [cs] := by
  induction cs with
  | nil => rfl
  | cons c cs ih =>
    rw [List.mem_cons, not_or] at h
    exact pieces_cons (Ne.symm h.1) (ih h.2)

lemma eq_slash_of_pieces_eq_nil_cons {x : List Char} {xs : List (List Char)}
    (h : pieces cs = [] :: x :: xs) : ∃ rest, cs = '/' :: rest := by
  cases cs with
  | nil => simp [pieces] at h
  | cons c cs =>
    by_cases hc : c = '/'
    · exact ⟨cs, by rw [hc]⟩
    · obtain ⟨y, ys, hy⟩ := List.exists_cons_of_ne_nil (pieces_ne_nil cs)
      rw [pieces_cons hc hy] at h
      cases h

/-- Pieces that are put together come apart again. -/
lemma pieces_intercalate {xs : List (List Char)} (hne : xs ≠ []) (h : ∀ x ∈ xs, '/' ∉ x) :
    pieces (List.intercalate ['/'] xs) = xs := by
  induction xs with
  | nil => exact absurd rfl hne
  | cons x xs ih =>
    obtain ⟨hx, hxs⟩ := List.forall_mem_cons.1 h
    cases xs with
    | nil => simpa [List.intercalate] using pieces_of_notMem hx
    | cons y ys =>
      have happend : List.intercalate ['/'] (x :: y :: ys) =
          x ++ '/' :: List.intercalate ['/'] (y :: ys) := by
        simp [List.intercalate]
      rw [happend, pieces_append_slash, pieces_of_notMem hx, ih (by simp) hxs,
        List.singleton_append]

/-- Pieces with a slash behind each come apart again, with nothing behind the last slash. -/
lemma pieces_flatMap_slash (h : ∀ x ∈ xs, '/' ∉ x) :
    pieces (xs.flatMap fun x => x ++ ['/']) = xs ++ [[]] := by
  induction xs with
  | nil => rfl
  | cons x xs ih =>
    obtain ⟨hx, hxs⟩ := List.forall_mem_cons.1 h
    rw [List.flatMap_cons, List.append_assoc, List.singleton_append, pieces_append_slash,
      pieces_of_notMem hx, ih hxs]
    rfl

/-! ### Components -/

lemma ofPieces_append (xs ys : List (List Char)) :
    ofPieces (xs ++ ys) = ofPieces xs ++ ofPieces ys := by
  simp [ofPieces]

lemma ofPieces_cons_of_isIdle {x : List Char} (hx : isIdle x = true) (xs : List (List Char)) :
    ofPieces (x :: xs) = ofPieces xs := by
  simp [ofPieces, hx]

lemma ofPieces_pieces_slash (cs : List Char) :
    ofPieces (pieces ('/' :: cs)) = ofPieces (pieces cs) := by
  rw [pieces_slash, ofPieces_cons_of_isIdle (by decide)]

lemma isAbsolute_iff : p.isAbsolute = true ↔ ∃ cs, p.text.toList = '/' :: cs := by
  rw [isAbsolute, beq_iff_eq, List.head?_eq_some_iff]

lemma text_ne_empty (h : p.isAbsolute = true) : p.text ≠ "" := by
  obtain ⟨cs, hcs⟩ := isAbsolute_iff.1 h
  intro hempty
  rw [hempty] at hcs
  cases hcs

lemma components_of_isAbsolute (h : p.isAbsolute = true) :
    p.components = .root :: ofPieces (pieces p.text.toList) := by
  rw [components, if_pos h]

/-- The components of a relative path, which may have a dot at its front. -/
lemma components_of_not_isAbsolute (h : ¬ p.isAbsolute = true) : ∃ front,
    p.components = front ++ ofPieces (pieces p.text.toList) ∧ .root ∉ front := by
  rw [components, if_neg h]
  split_ifs
  · exact ⟨[.current], rfl, by simp⟩
  · exact ⟨[], rfl, by simp⟩

lemma root_notMem_ofPieces (xs : List (List Char)) : .root ∉ ofPieces xs := by
  simp only [ofPieces, List.mem_map, Component.ofPiece, not_exists, not_and]
  intro x _
  split_ifs <;> simp

/-- Only an absolute path has the root among its components. -/
lemma root_mem_components_iff : .root ∈ p.components ↔ p.isAbsolute = true := by
  constructor
  · intro hroot
    by_contra h
    obtain ⟨front, hcomponents, hfront⟩ := components_of_not_isAbsolute h
    rw [hcomponents, List.mem_append] at hroot
    exact hroot.elim hfront (root_notMem_ofPieces _)
  · intro h
    rw [components_of_isAbsolute h]
    exact List.mem_cons_self

lemma Equiv.isAbsolute_eq (h : p.Equiv q) : p.isAbsolute = q.isAbsolute := by
  rw [Bool.eq_iff_iff, ← root_mem_components_iff, ← root_mem_components_iff,
    show p.components = q.components from h]

/-- Only the empty path has no components. -/
lemma components_eq_nil_iff : p.components = [] ↔ p.text = "" := by
  constructor
  · intro h
    by_contra hne
    obtain ⟨c, cs, hcs⟩ := List.exists_cons_of_ne_nil (String.toList_eq_nil_iff.not.2 hne)
    by_cases habsolute : p.isAbsolute = true
    · rw [components_of_isAbsolute habsolute] at h
      cases h
    · have hc : c ≠ '/' := by
        rintro rfl
        exact habsolute (isAbsolute_iff.2 ⟨cs, hcs⟩)
      obtain ⟨x, xs, hx⟩ := List.exists_cons_of_ne_nil (pieces_ne_nil cs)
      rw [components, if_neg habsolute, hcs, pieces_cons hc hx] at h
      split_ifs at h with hdot
      have hidle : isIdle (c :: x) = false := by simpa [isIdle] using hdot
      simp [ofPieces, hidle] at h
  · intro h
    obtain ⟨text⟩ := p
    subst h
    rfl

/-! ### Spelling -/

/-- The pieces of a path that count for something. -/
def counted (p : Path) : List (List Char) :=
  (pieces p.text.toList).filter fun x => !isIdle x

/-- Whether a path begins with a component that is a single dot. -/
def isDotted (p : Path) : Bool :=
  (pieces p.text.toList).head? == some ['.']

lemma ofPiece_injective : Function.Injective Component.ofPiece := by
  intro x y h
  simp only [Component.ofPiece] at h
  split_ifs at h with hx hy hy
  · rw [hx, hy]
  · exact Component.name.inj h

lemma components_eq (p : Path) : p.components =
    if p.isAbsolute then .root :: p.counted.map .ofPiece
    else if p.isDotted then .current :: p.counted.map .ofPiece
    else p.counted.map .ofPiece := rfl

lemma current_notMem_map_ofPiece (xs : List (List Char)) :
    Component.current ∉ xs.map Component.ofPiece := by
  rw [List.mem_map]
  rintro ⟨x, -, hx⟩
  rw [Component.ofPiece] at hx
  split_ifs at hx

/-- Paths are equivalent whatever idle pieces they are spelled with, except for a dot at the front
of a relative one. -/
theorem equiv_iff : p.Equiv q ↔ p.isAbsolute = q.isAbsolute ∧ p.counted = q.counted ∧
    (p.isAbsolute = false → p.isDotted = q.isDotted) := by
  constructor
  · intro h
    have habsolute := Equiv.isAbsolute_eq h
    have hmap := List.map_injective_iff.2 ofPiece_injective
    rw [Equiv, components_eq, components_eq, ← habsolute] at h
    refine ⟨habsolute, ?_⟩
    split_ifs at h with hp hpdot hqdot hqdot
    · simp [hmap (List.tail_eq_of_cons_eq h), hp]
    · simp [hmap (List.tail_eq_of_cons_eq h), hpdot, hqdot]
    · refine absurd ?_ (current_notMem_map_ofPiece q.counted)
      rw [← h]
      exact List.mem_cons_self
    · refine absurd ?_ (current_notMem_map_ofPiece p.counted)
      rw [h]
      exact List.mem_cons_self
    · simp [hmap h, hpdot, hqdot]
  · rintro ⟨habsolute, hcounted, hdotted⟩
    rw [Equiv, components_eq, components_eq, ← habsolute, ← hcounted]
    split_ifs with hp hpdot hqdot hqdot
    · rfl
    · rfl
    · exact absurd ((hdotted (by simpa using hp)).symm.trans hpdot) hqdot
    · exact absurd ((hdotted (by simpa using hp)).trans hqdot) hpdot
    · rfl

/-! ### Joining -/

@[simp] lemma join_empty (hp : p.text = "") (q : Path) : p.join q = q := by
  obtain ⟨text⟩ := p
  subst hp
  rw [join]
  split_ifs
  · rfl
  · simp

/-- A path and one below it, where the slash between the two may belong to the first. -/
lemma text_join (hp : p.text ≠ "") (hq : ¬ q.isAbsolute = true) : ∃ a,
    (p.text.toList = a ∧ a ≠ [] ∨ p.text.toList = a ++ ['/']) ∧
      (p.join q).text.toList = a ++ '/' :: q.text.toList := by
  have hne : p.text.toList ≠ [] := String.toList_eq_nil_iff.not.2 hp
  obtain ⟨a, c, hac⟩ := (List.eq_nil_or_concat' _).resolve_left hne
  have hlast : p.text.toList.getLast? = some c := by rw [hac, List.getLast?_concat]
  rw [join, if_neg hq, hlast]
  by_cases hc : c = '/'
  · subst hc
    refine ⟨a, .inr hac, ?_⟩
    simp [hac]
  · refine ⟨a ++ [c], .inl ⟨hac, by simp⟩, ?_⟩
    split
    · simp_all
    · simp_all
    · simp [hac]

lemma components_append {rest : List Component} (habsolute : q.isAbsolute = p.isAbsolute)
    (hhead : (pieces q.text.toList).head? = (pieces p.text.toList).head?)
    (hpieces : ofPieces (pieces q.text.toList) = ofPieces (pieces p.text.toList) ++ rest) :
    q.components = p.components ++ rest := by
  rw [components, components, habsolute, hhead, hpieces]
  split_ifs <;> rfl

lemma components_join (hp : p.text ≠ "") (hq : ¬ q.isAbsolute = true) :
    (p.join q).components = p.components ++ ofPieces (pieces q.text.toList) := by
  obtain ⟨a, ha, hjoin⟩ := text_join hp hq
  obtain ⟨x, xs, hx⟩ := List.exists_cons_of_ne_nil (pieces_ne_nil a)
  refine components_append ?_ ?_ ?_
  · rw [isAbsolute, isAbsolute, hjoin]
    rcases ha with ⟨ha, hne⟩ | ha
    · rw [ha, List.head?_append_of_ne_nil _ hne]
    · rw [ha]
      cases a <;> rfl
  · rw [hjoin, pieces_append_slash]
    rcases ha with ⟨ha, -⟩ | ha
    · rw [ha, hx]
      rfl
    · rw [ha, pieces_append_slash, hx]
      rfl
  · rw [hjoin, pieces_append_slash, ofPieces_append]
    rcases ha with ⟨ha, -⟩ | ha
    · rw [ha]
    · rw [ha, pieces_append_slash, ofPieces_append]
      simp [pieces, ofPieces, isIdle]

/-- A path has a last component if what was joined to it at its end has one. -/
lemma ofPieces_join_ne_nil (hq : ¬ q.isAbsolute = true)
    (hne : ofPieces (pieces q.text.toList) ≠ []) (p : Path) :
    ofPieces (pieces (p.join q).text.toList) ≠ [] := by
  by_cases hp : p.text = ""
  · rwa [join_empty hp]
  · obtain ⟨a, -, hjoin⟩ := text_join hp hq
    rw [hjoin, pieces_append_slash, ofPieces_append]
    exact List.append_ne_nil_of_right_ne_nil _ hne

/-- A path joined to another one is absolute if either is. -/
lemma isAbsolute_join_iff :
    (p.join q).isAbsolute = true ↔ q.isAbsolute = true ∨ p.isAbsolute = true := by
  by_cases hq : q.isAbsolute = true
  · simp [join_of_isAbsolute p hq, hq]
  · by_cases hp : p.text = ""
    · have hnot : ¬ p.isAbsolute = true := by simp [isAbsolute, hp]
      simp [join_empty hp, hq, hnot]
    · rw [← root_mem_components_iff, components_join hp hq, List.mem_append,
        root_mem_components_iff]
      simp [root_notMem_ofPieces, hq]

/-- The text of what is joined to a path stays as it is. -/
lemma exists_text_join (p q : Path) : ∃ front, (p.join q).text = front ++ q.text := by
  rw [join]
  split_ifs
  · exact ⟨"", String.empty_append.symm⟩
  · split <;> exact ⟨_, rfl⟩

lemma utf8ByteSize_le_join (p q : Path) : q.text.utf8ByteSize ≤ (p.join q).text.utf8ByteSize := by
  obtain ⟨front, hfront⟩ := exists_text_join p q
  rw [hfront, String.utf8ByteSize_append]
  exact Nat.le_add_left _ _

lemma utf8ByteSize_le_join_left (p : Path) (hq : q.isAbsolute = false) :
    p.text.utf8ByteSize ≤ (p.join q).text.utf8ByteSize := by
  rw [join, if_neg (by simp [hq])]
  split
  · simp
  · simp
  · simp only [String.utf8ByteSize_append]
    omega

lemma nul_notMem_join (hp : '\x00' ∉ p.text.toList) (hq : '\x00' ∉ q.text.toList) :
    '\x00' ∉ (p.join q).text.toList := by
  rw [join]
  split
  · exact hq
  · split <;> simp [hp, hq]

/-- The same path below equivalent ones. -/
theorem Equiv.join (h : p.Equiv q) (d : Path) : (p.join d).Equiv (q.join d) := by
  by_cases hd : d.isAbsolute = true
  · rw [join_of_isAbsolute p hd, join_of_isAbsolute q hd]
    exact .refl d
  · by_cases hp : p.text = ""
    · have hq : q.text = "" := by
        rwa [← components_eq_nil_iff, ← show p.components = q.components from h,
          components_eq_nil_iff]
      rw [join_empty hp, join_empty hq]
      exact .refl d
    · have hq : q.text ≠ "" := by
        rwa [Ne, ← components_eq_nil_iff, ← show p.components = q.components from h,
          components_eq_nil_iff]
      rw [Equiv, components_join hp hd, components_join hq hd,
        show p.components = q.components from h]

/-! ### Parents -/

lemma settle_cons (relative : Bool) (x y : List Char) (ys : List (List Char)) :
    settle relative (x :: y :: ys) = if isIdle x then settle relative (y :: ys) else x :: y :: ys :=
  rfl

/-- What is settled away counts for nothing. -/
lemma ofPieces_settle (relative : Bool) (xs : List (List Char)) :
    ofPieces (settle relative xs).reverse = ofPieces xs.reverse := by
  induction xs with
  | nil => rfl
  | cons x xs ih =>
    cases xs with
    | nil =>
      rw [settle]
      split_ifs with h
      · have hidle : isIdle x = true := by
          simp only [isIdle, Bool.or_eq_true, Bool.and_eq_true] at h ⊢
          tauto
        simp [ofPieces, hidle]
      · rfl
    | cons y ys =>
      rw [settle_cons]
      split_ifs with h
      · rw [ih, List.reverse_cons (a := x), ofPieces_append]
        simp [ofPieces, h]
      · rfl

/-- What is left after settling begins with the last component of the path. -/
lemma settle_eq_cons {relative : Bool} {xs ys : List (List Char)} {x : List Char}
    (h : settle relative xs = x :: ys) : x :: ys <:+ xs ∧ (isIdle x = true → ys = []) := by
  induction xs with
  | nil => cases h
  | cons y xs ih =>
    cases xs with
    | nil =>
      rw [settle] at h
      split_ifs at h
      cases h
      exact ⟨List.suffix_rfl, fun _ => rfl⟩
    | cons z zs =>
      rw [settle_cons] at h
      split_ifs at h with hidle
      · obtain ⟨hsuffix, hlast⟩ := ih h
        exact ⟨hsuffix.trans (List.suffix_cons _ _), hlast⟩
      · cases h
        exact ⟨List.suffix_rfl, fun h => absurd h hidle⟩

lemma settle_suffix (relative : Bool) (xs : List (List Char)) : settle relative xs <:+ xs := by
  cases h : settle relative xs with
  | nil => exact List.nil_suffix
  | cons x ys => exact (settle_eq_cons h).1

lemma ofPieces_ofReversed {root : List Char} (hroot : root = [] ∨ root = ['/'])
    {xs : List (List Char)} (h : ∀ x ∈ xs, '/' ∉ x) :
    ofPieces (pieces (ofReversed root xs).text.toList) = ofPieces xs.reverse := by
  have htext : ofPieces (pieces (ofReversed root xs).text.toList) =
      ofPieces (pieces (List.intercalate ['/'] xs.reverse)) := by
    rcases hroot with rfl | rfl
    · simp [ofReversed]
    · simp [ofReversed, ofPieces_pieces_slash]
  rw [htext]
  cases xs with
  | nil => rfl
  | cons x xs => rw [pieces_intercalate (by simp) fun y hy => h y (List.mem_reverse.1 hy)]

/-- The pieces behind the root that a path begins with, if it does. -/
lemma exists_root (p : Path) : ∃ root cs,
    (root = if p.isAbsolute then ['/'] else []) ∧ p.text.toList = root ++ cs ∧
      ofPieces (pieces p.text.toList) = ofPieces (pieces cs) := by
  by_cases h : p.isAbsolute = true
  · obtain ⟨cs, hcs⟩ := isAbsolute_iff.1 h
    exact ⟨['/'], cs, by rw [if_pos h], hcs, by rw [hcs, ofPieces_pieces_slash]⟩
  · exact ⟨[], p.text.toList, by rw [if_neg h], rfl, rfl⟩

/-- What is left of a relative path does not begin with a slash. -/
lemma relative_of_prefix {xs : List (List Char)} (hcs : ¬ ∃ rest, cs = '/' :: rest)
    (h : xs <+: pieces cs) : ¬ ∃ rest, List.intercalate ['/'] xs = '/' :: rest := by
  rintro ⟨rest, hrest⟩
  have hne : xs ≠ [] := by
    rintro rfl
    cases hrest
  have hslash : ∀ x ∈ xs, '/' ∉ x := fun x hx => slash_notMem_of_mem_pieces (h.subset hx)
  have hpieces := pieces_intercalate hne hslash
  obtain ⟨y, ys, hy⟩ := List.exists_cons_of_ne_nil (pieces_ne_nil rest)
  rw [hrest, pieces_slash, hy] at hpieces
  obtain ⟨more, hmore⟩ := h
  rw [← hpieces] at hmore
  exact hcs (eq_slash_of_pieces_eq_nil_cons hmore.symm)

/-- The parent of a path is absolute if the path is, and has all components but the last. -/
theorem parent?_eq_some (h : p.parent? = some d) : d.isAbsolute = p.isAbsolute ∧
    ofPieces (pieces d.text.toList) = (ofPieces (pieces p.text.toList)).dropLast := by
  obtain ⟨root, cs, hroot, htext, hpieces⟩ := exists_root p
  rw [parent?, ← hroot, htext, List.drop_left] at h
  split at h
  · cases h
  next x before hsettle =>
  obtain rfl := Option.some.inj h
  obtain ⟨hsuffix, hidle⟩ := settle_eq_cons hsettle
  have hleft : settle (!p.isAbsolute) before <:+ (pieces cs).reverse :=
    (settle_suffix _ before).trans ((List.suffix_cons _ _).trans hsuffix)
  constructor
  · cases habsolute : p.isAbsolute with
    | true =>
      rw [habsolute, if_pos rfl] at hroot
      simp [isAbsolute, ofReversed, hroot]
    | false =>
      rw [habsolute, if_neg Bool.false_ne_true] at hroot
      rw [habsolute] at hleft
      have hcs : ¬ ∃ rest, cs = '/' :: rest := by
        rintro ⟨rest, rfl⟩
        rw [isAbsolute, htext, hroot] at habsolute
        cases habsolute
      rw [Bool.eq_false_iff, Ne, isAbsolute_iff]
      have hfront : (settle true before).reverse <+: pieces cs := by
        rw [← List.reverse_suffix, List.reverse_reverse]
        exact hleft
      simpa [ofReversed, hroot] using relative_of_prefix hcs hfront
  · have hslash : ∀ y ∈ settle (!p.isAbsolute) before, '/' ∉ y := fun y hy =>
      slash_notMem_of_mem_pieces (List.mem_reverse.1 (hleft.subset hy))
    have hall : ofPieces (pieces cs) = ofPieces before.reverse ++ ofPieces [x] := by
      rw [← List.reverse_reverse (pieces cs), ← ofPieces_settle (!p.isAbsolute), hsettle,
        List.reverse_cons, ofPieces_append]
    rw [ofPieces_ofReversed (by rw [hroot]; split_ifs <;> simp) hslash, hpieces, hall,
      ofPieces_settle]
    by_cases hx : isIdle x = true
    · rw [hidle hx, ofPieces_cons_of_isIdle hx]
      rfl
    · simp [ofPieces, hx]

/-- A path with a component other than the root has a parent. -/
lemma exists_parent? (h : ofPieces (pieces p.text.toList) ≠ []) : ∃ d, p.parent? = some d := by
  obtain ⟨root, cs, hroot, htext, hpieces⟩ := exists_root p
  rw [parent?, ← hroot, htext, List.drop_left]
  split
  next hsettle =>
    rw [hpieces, ← List.reverse_reverse (pieces cs), ← ofPieces_settle (!p.isAbsolute), hsettle] at h
    exact absurd rfl h
  · exact ⟨_, rfl⟩

end Path

end Depot
