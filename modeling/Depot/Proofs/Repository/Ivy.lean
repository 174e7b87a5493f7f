import Depot.Proofs.Configuration.InPlace
import Depot.Session
import Mathlib.Data.List.Induction

/-!
# Patterns of Ivy repositories

The patterns of an Ivy repository are put together when they are asked for, from a URL, a layout and
two lists that may have been changed in any order. They can be read off what was done to it: the
last URL without the slashes at its end, the last layout, and all patterns in the order in which
they were added (`IvyRepository.patterns_of_editAll`). An assignment that fails adds nothing, though
it is made in place and one pattern after another.
-/

namespace Depot

/-! ### Strings in a value -/

namespace Json

/-- The string that a value is, if it is one. -/
def string? : Json → Option String
  | .string s => some s
  | _ => none

/-- The strings that a value lists: itself, or the items of an array if all of them are strings. -/
def strings : Json → List String
  | .string s => [s]
  | .array items => if ∀ v ∈ items, v.string?.isSome then items.filterMap string? else []
  | _ => []

variable {v : Json} {s : String} {ss : List String}

lemma string?_eq_some_iff : v.string? = some s ↔ v = .string s := by
  cases v <;> simp [string?]

lemma Lists.strings_eq (h : v.Lists ss) : v.strings = ss := by
  cases h with
  | one s => rfl
  | many =>
    have hall : ∀ v ∈ ss.map Json.string, v.string?.isSome := by simp [string?]
    rw [ofStrings, strings, if_pos hall, List.filterMap_map]
    exact List.filterMap_some

/-- A value lists the strings in it, if there are some. -/
lemma lists_strings (h : v.strings ≠ []) : v.Lists v.strings := by
  cases v with
  | string s => exact .one s
  | array items =>
    by_cases hall : ∀ v ∈ items, v.string?.isSome
    · have hitems : items = (items.filterMap string?).map .string := by
        clear h
        induction items with
        | nil => rfl
        | cons v items ih =>
          obtain ⟨hv, hall⟩ := List.forall_mem_cons.1 hall
          obtain ⟨s, hs⟩ := Option.isSome_iff_exists.1 hv
          rw [List.filterMap_cons_some hs, List.map_cons, ← ih hall, string?_eq_some_iff.1 hs]
      rw [strings, if_pos hall]
      conv => enter [1]; rw [hitems]
      exact .many _
    · rw [strings, if_neg hall] at h
      exact absurd rfl h
  | null | bool | number | object => exact absurd rfl h

end Json

namespace IvyRepository

/-! ### Slashes at the end of a URL -/

/-- A URL with more slashes at its end. -/
def withSlashes (url : String) (n : Nat) : String :=
  url ++ String.ofList (List.replicate n '/')

lemma trimSlashes_withSlashes (url : String) (n : Nat) :
    trimSlashes (withSlashes url n) = trimSlashes url := by
  have hslashes : ∀ c ∈ List.replicate n '/', (c == '/') = true := by
    intro c hc
    rw [List.eq_of_mem_replicate hc, beq_self_eq_true]
  rw [trimSlashes, trimSlashes, withSlashes, String.toList_append, String.toList_ofList,
    List.reverse_append, List.reverse_replicate, List.dropWhile_append_of_pos hslashes]

/-- Trimming takes slashes away and nothing else. -/
lemma exists_withSlashes (url : String) : ∃ n, url = withSlashes (trimSlashes url) n := by
  set slashes := url.toList.reverse.takeWhile (· == '/') with hslashes
  have hreplicate : slashes = List.replicate slashes.length '/' := by
    refine List.eq_replicate_of_mem fun c hc => ?_
    exact beq_iff_eq.1 (List.all_eq_true.1 List.all_takeWhile c hc)
  have hreverse : slashes.reverse = slashes := by
    rw [hreplicate, List.reverse_replicate]
  refine ⟨slashes.length, String.toList_injective ?_⟩
  rw [withSlashes, String.toList_append, String.toList_ofList, ← hreplicate, trimSlashes,
    String.toList_ofList]
  calc url.toList
      = url.toList.reverse.reverse := (List.reverse_reverse _).symm
    _ = (slashes ++ url.toList.reverse.dropWhile (· == '/')).reverse := by
      rw [hslashes, List.takeWhile_append_dropWhile]
    _ = (url.toList.reverse.dropWhile (· == '/')).reverse ++ slashes := by
      rw [List.reverse_append, hreverse]

/-- It leaves none at the end. -/
lemma getLast?_trimSlashes (url : String) : (trimSlashes url).toList.getLast? ≠ some '/' := by
  rw [trimSlashes, String.toList_ofList, List.getLast?_reverse]
  intro h
  have hhead := List.head?_dropWhile_not (· == '/') url.toList.reverse
  rw [h] at hhead
  simp at hhead

/-! ### Operations -/

/-- What can be done to an Ivy repository. -/
inductive Edit where
  | change (c : Change)
  | setProperty (property : String) (value : Json)

/-- Does one thing to a repository. Changing a part that it does not have does nothing. An
assignment is made in place, and what it has changed stays changed even if it fails. -/
def edit (r : IvyRepository) : Edit → IvyRepository
  | .change c => (r.change? c).getD r
  | .setProperty property value =>
    match (assignInPlace property value).run r with
    | .ok _ t => t
    | .error _ t => t

/-- Does one thing after another. -/
def editAll (r : IvyRepository) (edits : List Edit) : IvyRepository :=
  edits.foldl edit r

namespace Edit

/-- The URL that an edit sets. -/
@[simp] def url? : Edit → Option String
  | .change (.url url) => some url
  | .change _ => none
  | .setProperty property value => if property = "url" then value.string? else none

/-- The layout that an edit sets. -/
@[simp] def layout? : Edit → Option IvyLayout
  | .change (.layout l) => some l
  | .change _ => none
  | .setProperty property value =>
    if property = "layout" then value.string?.bind IvyLayout.ofText? else none

/-- The patterns of artifacts that an edit adds. -/
@[simp] def artifactPatterns : Edit → List String
  | .change (.addArtifactPattern pattern) => [pattern]
  | .change _ => []
  | .setProperty property value =>
    if property = "artifactPattern" ∨ property = "artifactPatterns" then value.strings else []

/-- The patterns of descriptors that an edit adds. -/
@[simp] def ivyPatterns : Edit → List String
  | .change (.addIvyPattern pattern) => [pattern]
  | .change _ => []
  | .setProperty property value =>
    if property = "ivyPattern" ∨ property = "ivyPatterns" then value.strings else []

/-- The last URL that some edits set. -/
def lastUrl? (edits : List Edit) : Option String :=
  (edits.filterMap url?).getLast?

/-- The last layout that some edits set, or the one of a new repository. -/
def lastLayout (edits : List Edit) : IvyLayout :=
  (edits.filterMap layout?).getLast?.getD .gradle

/-- Edits that differ at most in the number of slashes at the end of a URL. -/
inductive UpToSlashes : Edit → Edit → Prop where
  | same (e : Edit) : UpToSlashes e e
  | change (url : String) (m n : Nat) :
      UpToSlashes (.change (.url (withSlashes url m))) (.change (.url (withSlashes url n)))
  | setProperty (url : String) (m n : Nat) :
      UpToSlashes (.setProperty "url" (.string (withSlashes url m)))
        (.setProperty "url" (.string (withSlashes url n)))

end Edit

/-! ### The invariant -/

/-- What is true of a repository to which some things were done, and that was new before. -/
structure Reflects (r : IvyRepository) (edits : List Edit) : Prop where
  url : r.url = Edit.lastUrl? edits
  layout : r.layout = Edit.lastLayout edits
  artifactPatterns : r.extraArtifactPatterns = edits.flatMap Edit.artifactPatterns
  ivyPatterns : r.extraIvyPatterns = edits.flatMap Edit.ivyPatterns

/-- How an edit changes the parts of which patterns are made. -/
structure Follows (r : IvyRepository) (e : Edit) (t : IvyRepository) : Prop where
  url : t.url = e.url?.or r.url
  layout : t.layout = e.layout?.getD r.layout
  artifactPatterns : t.extraArtifactPatterns = r.extraArtifactPatterns ++ e.artifactPatterns
  ivyPatterns : t.extraIvyPatterns = r.extraIvyPatterns ++ e.ivyPatterns

variable {r t : IvyRepository} {p : String} {v : Json} {edits : List Edit} {e : Edit}

lemma Assigned.follows (h : r.Assigned p v t) : r.Follows (.setProperty p v) t := by
  cases h with
  | name | credentials => constructor <;> simp
  | url | layout => constructor <;> simp [Json.string?]
  | artifactPatterns hp hv | ivyPatterns hp hv =>
    rcases hp with rfl | rfl <;> constructor <;> simp [hv.strings_eq]

lemma exists_assigned_of_url? {url : String} (h : Edit.url? (.setProperty p v) = some url)
    (r : IvyRepository) : ∃ t, r.Assigned p v t := by
  obtain ⟨rfl, hv⟩ : p = "url" ∧ v.string? = some url := by simpa using h
  rw [Json.string?_eq_some_iff.1 hv]
  exact ⟨_, .url url⟩

lemma exists_assigned_of_layout? {l : IvyLayout} (h : Edit.layout? (.setProperty p v) = some l)
    (r : IvyRepository) : ∃ t, r.Assigned p v t := by
  obtain ⟨rfl, s, hv, hs⟩ :
      p = "layout" ∧ ∃ s, v.string? = some s ∧ IvyLayout.ofText? s = some l := by
    simpa [Option.bind_eq_some_iff] using h
  have hparse : IvyLayout.parse s = .ok l := by rw [IvyLayout.parse, hs]
  rw [Json.string?_eq_some_iff.1 hv, IvyLayout.parse_eq_ok_iff.1 hparse]
  exact ⟨_, .layout l⟩

lemma exists_assigned_of_artifactPatterns (h : Edit.artifactPatterns (.setProperty p v) ≠ [])
    (r : IvyRepository) : ∃ t, r.Assigned p v t := by
  obtain ⟨hp, hv⟩ : (p = "artifactPattern" ∨ p = "artifactPatterns") ∧ v.strings ≠ [] := by
    simpa using h
  exact ⟨_, .artifactPatterns hp (Json.lists_strings hv)⟩

lemma exists_assigned_of_ivyPatterns (h : Edit.ivyPatterns (.setProperty p v) ≠ [])
    (r : IvyRepository) : ∃ t, r.Assigned p v t := by
  obtain ⟨hp, hv⟩ : (p = "ivyPattern" ∨ p = "ivyPatterns") ∧ v.strings ≠ [] := by
    simpa using h
  exact ⟨_, .ivyPatterns hp (Json.lists_strings hv)⟩

/-- A property that cannot be assigned gives nothing. -/
lemma follows_of_not_assigned (h : ¬ ∃ t, r.Assigned p v t) :
    r.Follows (.setProperty p v) r := by
  have hurl : Edit.url? (.setProperty p v) = none :=
    Option.eq_none_iff_forall_ne_some.2 fun _ hsome => h (exists_assigned_of_url? hsome r)
  have hlayout : Edit.layout? (.setProperty p v) = none :=
    Option.eq_none_iff_forall_ne_some.2 fun _ hsome => h (exists_assigned_of_layout? hsome r)
  have hartifacts : Edit.artifactPatterns (.setProperty p v) = [] :=
    not_not.1 fun hne => h (exists_assigned_of_artifactPatterns hne r)
  have hivy : Edit.ivyPatterns (.setProperty p v) = [] :=
    not_not.1 fun hne => h (exists_assigned_of_ivyPatterns hne r)
  constructor
  · rw [hurl, Option.none_or]
  · rw [hlayout, Option.getD_none]
  · rw [hartifacts, List.append_nil]
  · rw [hivy, List.append_nil]

/-- An assignment that is made in place leaves the repository that it describes, or the old one. -/
lemma edit_setProperty (r : IvyRepository) (p : String) (v : Json) :
    r.edit (.setProperty p v) =
      match setProperty r p v with
      | .ok t => t
      | .error _ => r := by
  rw [edit, run_assignInPlace]
  cases setProperty r p v <;> rfl

lemma edit_follows (r : IvyRepository) (e : Edit) : r.Follows e (r.edit e) := by
  cases e with
  | change c => cases c <;> constructor <;> simp [edit, change?]
  | setProperty p v =>
    rw [edit_setProperty]
    cases hset : setProperty r p v with
    | ok t =>
      have hassigned := assign_eq_ok_iff.1 (mapError_eq_ok.1 hset)
      exact hassigned.follows
    | error e =>
      refine follows_of_not_assigned ?_
      rintro ⟨t, hassigned⟩
      obtain ⟨reason, hreason, -⟩ := mapError_eq_error.1 hset
      cases (assign_eq_ok_iff.2 hassigned).symm.trans hreason

/-- The last one that is given is that of the last element, if it gives one. -/
lemma getLast?_filterMap_concat {α β : Type} (g : α → Option β) (as : List α) (a : α) :
    ((as ++ [a]).filterMap g).getLast? = (g a).or (as.filterMap g).getLast? := by
  rw [List.filterMap_append, List.getLast?_append]
  cases hg : g a <;> simp [hg]

lemma Reflects.edit (h : r.Reflects edits) (e : Edit) : (r.edit e).Reflects (edits ++ [e]) := by
  obtain ⟨hurl, hlayout, hartifacts, hivy⟩ := edit_follows r e
  constructor
  · rw [hurl, h.url, Edit.lastUrl?, Edit.lastUrl?, getLast?_filterMap_concat]
  · rw [hlayout, h.layout, Edit.lastLayout, Edit.lastLayout, getLast?_filterMap_concat,
      Option.getD_or]
  · rw [hartifacts, h.artifactPatterns, List.flatMap_append, List.flatMap_singleton]
  · rw [hivy, h.ivyPatterns, List.flatMap_append, List.flatMap_singleton]

lemma reflects_editAll (c : Credentials) (i : Infrastructure) (edits : List Edit) :
    ((fresh c i).editAll edits).Reflects edits := by
  -- The edits are taken from the end, since the last URL and the last layout count.
  induction edits using List.reverseRecOn with
  | nil => exact ⟨rfl, rfl, rfl, rfl⟩
  | append_singleton edits e ih =>
    rw [editAll, List.foldl_append]
    exact ih.edit e

/-! ### Patterns -/

/-- All patterns of a sort: the one of the layout below the last URL, then those that were added. -/
def gathered (edits : List Edit) (pattern : String) (added : Edit → List String) : List String :=
  ((Edit.lastUrl? edits).map fun url => trimSlashes url ++ "/" ++ pattern).toList ++
    edits.flatMap added

lemma Reflects.artifactPatterns_eq (h : r.Reflects edits) : r.artifactPatterns =
    gathered edits (Edit.lastLayout edits).artifactPattern Edit.artifactPatterns := by
  rw [IvyRepository.artifactPatterns, h.url, h.layout, h.artifactPatterns]
  rfl

lemma Reflects.ownIvyPatterns_eq (h : r.Reflects edits) : r.ownIvyPatterns =
    gathered edits (Edit.lastLayout edits).ivyPattern Edit.ivyPatterns := by
  rw [ownIvyPatterns, h.url, h.layout, h.ivyPatterns]
  rfl

lemma gathered_eq_nil_iff {pattern : String} {added : Edit → List String} :
    gathered edits pattern added = [] ↔ ∀ e ∈ edits, e.url? = none ∧ added e = [] := by
  have hurl : Edit.lastUrl? edits = none ↔ ∀ e ∈ edits, e.url? = none := by
    rw [Edit.lastUrl?, List.getLast?_eq_none_iff, List.filterMap_eq_nil_iff]
  rw [gathered, List.append_eq_nil_iff, Option.toList_eq_nil_iff, Option.map_eq_none_iff, hurl,
    List.flatMap_eq_nil_iff, ← forall₂_and]

lemma ivyPatterns_of_ne_nil (h : r.ownIvyPatterns ≠ []) : r.ivyPatterns = r.ownIvyPatterns := by
  rw [ivyPatterns, if_neg (mt List.isEmpty_iff.1 h)]

lemma ivyPatterns_of_eq_nil (h : r.ownIvyPatterns = []) : r.ivyPatterns = r.artifactPatterns := by
  rw [ivyPatterns, if_pos (List.isEmpty_iff.2 h)]

lemma ivyPatterns_eq_nil_iff :
    r.ivyPatterns = [] ↔ r.ownIvyPatterns = [] ∧ r.artifactPatterns = [] := by
  by_cases h : r.ownIvyPatterns = []
  · rw [ivyPatterns_of_eq_nil h, and_iff_right h]
  · rw [ivyPatterns_of_ne_nil h]
    exact ⟨fun hnil => absurd hnil h, And.left⟩

/-! ### Slashes make no difference -/

/-- Edits that differ in slashes only give the same, but for the slashes. -/
lemma Edit.UpToSlashes.gives_eq {e e' : Edit} (h : e.UpToSlashes e') :
    e.url?.map trimSlashes = e'.url?.map trimSlashes ∧ e.layout? = e'.layout? ∧
      e.artifactPatterns = e'.artifactPatterns ∧ e.ivyPatterns = e'.ivyPatterns := by
  cases h with
  | same => exact ⟨rfl, rfl, rfl, rfl⟩
  | change url m n => simp [trimSlashes_withSlashes]
  | setProperty url m n => simp [Json.string?, trimSlashes_withSlashes]

/-- What agrees for each two edits of two histories agrees for the histories. -/
lemma map_eq_of_forall₂ {α : Type} {R : Edit → Edit → Prop} {g : Edit → α}
    (hg : ∀ e e', R e e' → g e = g e') {edits' : List Edit} (h : List.Forall₂ R edits edits') :
    edits.map g = edits'.map g := by
  rw [← List.forall₂_eq_eq_eq, List.forall₂_map_left_iff, List.forall₂_map_right_iff]
  exact h.imp hg

lemma gathered_congr {edits' : List Edit} (h : List.Forall₂ Edit.UpToSlashes edits edits')
    (pattern : String) {added : Edit → List String}
    (hadded : ∀ e e' : Edit, e.UpToSlashes e' → added e = added e') :
    gathered edits pattern added = gathered edits' pattern added := by
  have hlast (edits : List Edit) : (Edit.lastUrl? edits).map trimSlashes =
      ((edits.map fun e => e.url?.map trimSlashes).filterMap id).getLast? := by
    rw [Edit.lastUrl?, ← List.getLast?_map, List.map_filterMap, List.filterMap_map]
    rfl
  have hurl : (Edit.lastUrl? edits).map trimSlashes = (Edit.lastUrl? edits').map trimSlashes := by
    rw [hlast, hlast, map_eq_of_forall₂ (fun _ _ he => he.gives_eq.1) h]
  have hbelow (edits : List Edit) :
      ((Edit.lastUrl? edits).map fun url => trimSlashes url ++ "/" ++ pattern) =
        ((Edit.lastUrl? edits).map trimSlashes).map fun url => url ++ "/" ++ pattern := by
    rw [Option.map_map]
    rfl
  rw [gathered, gathered, hbelow, hbelow, hurl, List.flatMap_def, List.flatMap_def,
    map_eq_of_forall₂ hadded h]

lemma lastLayout_congr {edits' : List Edit} (h : List.Forall₂ Edit.UpToSlashes edits edits') :
    Edit.lastLayout edits = Edit.lastLayout edits' := by
  have hlast (edits : List Edit) : Edit.lastLayout edits =
      ((edits.map Edit.layout?).filterMap id).getLast?.getD .gradle := by
    rw [List.filterMap_map]
    rfl
  rw [hlast, hlast, map_eq_of_forall₂ (fun _ _ he => he.gives_eq.2.1) h]

/-- Two histories that differ in slashes only lead to the same patterns. -/
lemma Reflects.patterns_congr {edits' : List Edit} (hr : r.Reflects edits)
    (ht : t.Reflects edits') (h : List.Forall₂ Edit.UpToSlashes edits edits') :
    t.artifactPatterns = r.artifactPatterns ∧ t.ivyPatterns = r.ivyPatterns := by
  have hartifacts : t.artifactPatterns = r.artifactPatterns := by
    rw [ht.artifactPatterns_eq, hr.artifactPatterns_eq, lastLayout_congr h,
      gathered_congr h _ fun _ _ he => he.gives_eq.2.2.1]
  have hown : t.ownIvyPatterns = r.ownIvyPatterns := by
    rw [ht.ownIvyPatterns_eq, hr.ownIvyPatterns_eq, lastLayout_congr h,
      gathered_congr h _ fun _ _ he => he.gives_eq.2.2.2]
  refine ⟨hartifacts, ?_⟩
  rw [IvyRepository.ivyPatterns, IvyRepository.ivyPatterns, hown, hartifacts]

/-- The patterns of a repository can be read off what was done to it. Those of artifacts are the one
of the last layout below the last URL, and then all that were added. Those of descriptors are
gathered in the same way if a URL or one of them was given, and otherwise they are those of
artifacts; so there are none if nothing was given at all. The URL counts without the slashes at its
end. -/
theorem patterns_of_editAll (c : Credentials) (i : Infrastructure) (edits : List Edit) :
    let r := (fresh c i).editAll edits
    r.artifactPatterns =
      gathered edits (Edit.lastLayout edits).artifactPattern Edit.artifactPatterns ∧
    ((∃ e ∈ edits, e.url? ≠ none ∨ e.ivyPatterns ≠ []) →
      r.ivyPatterns = gathered edits (Edit.lastLayout edits).ivyPattern Edit.ivyPatterns) ∧
    ((∀ e ∈ edits, e.url? = none ∧ e.ivyPatterns = []) → r.ivyPatterns = r.artifactPatterns) ∧
    (r.ivyPatterns = [] ↔
      ∀ e ∈ edits, e.url? = none ∧ e.ivyPatterns = [] ∧ e.artifactPatterns = []) ∧
    (∀ c' i' edits', List.Forall₂ Edit.UpToSlashes edits edits' →
      ((fresh c' i').editAll edits').artifactPatterns = r.artifactPatterns ∧
        ((fresh c' i').editAll edits').ivyPatterns = r.ivyPatterns) ∧
    ∀ url, (∃ n, url = withSlashes (trimSlashes url) n) ∧
      (trimSlashes url).toList.getLast? ≠ some '/' := by
  intro r
  have hr : r.Reflects edits := reflects_editAll c i edits
  have hartifacts := hr.artifactPatterns_eq
  have hown := hr.ownIvyPatterns_eq
  have hnone : r.ownIvyPatterns = [] ↔ ∀ e ∈ edits, e.url? = none ∧ e.ivyPatterns = [] := by
    rw [hown, gathered_eq_nil_iff]
  refine ⟨hartifacts, ?_, ?_, ?_, ?_, fun url => ⟨exists_withSlashes url, getLast?_trimSlashes url⟩⟩
  · rintro ⟨e, he, hgives⟩
    rw [ivyPatterns_of_ne_nil, hown]
    intro hnil
    obtain ⟨hurl, hivy⟩ := hnone.1 hnil e he
    exact hgives.elim (· hurl) (· hivy)
  · intro hnot
    exact ivyPatterns_of_eq_nil (hnone.2 hnot)
  · rw [ivyPatterns_eq_nil_iff, hnone, hartifacts, gathered_eq_nil_iff, ← forall₂_and]
    exact forall₂_congr fun _ _ => and_and_left.symm
  · intro c' i' edits' h
    exact hr.patterns_congr (reflects_editAll c' i' edits') h

/-- A URL with some slashes at its end, set after patterns were added, a layout that does not exist,
and an array of which not all items are strings. -/
def mixedEdits (slashes : Nat) : List Edit :=
  [.change (.addArtifactPattern "a"), .setProperty "layout" (.string "flat"),
    .change (.layout .ivy), .setProperty "ivyPatterns" (.array [.string "b", .null]),
    .change (.url (withSlashes "https://example.org" slashes)),
    .setProperty "artifactPatterns" (.array [.string "c", .string "d"])]

/-- The slashes make no difference, and what fails leaves nothing behind. -/
theorem patterns_of_editAll_mixed :
    let r := (fresh .empty (.numbered 0)).editAll (mixedEdits 0)
    let t := (fresh .empty (.numbered 1)).editAll (mixedEdits 2)
    t.url = some "https://example.org//" ∧
      List.Forall₂ Edit.UpToSlashes (mixedEdits 0) (mixedEdits 2) ∧
      (∃ e ∈ mixedEdits 2, e.url? ≠ none ∨ e.ivyPatterns ≠ []) ∧
      t.artifactPatterns = ["https://example.org/" ++ IvyLayout.plainPattern, "a", "c", "d"] ∧
      t.ivyPatterns = ["https://example.org/" ++ IvyLayout.plainPattern] ∧
      t.artifactPatterns = r.artifactPatterns ∧ t.ivyPatterns = r.ivyPatterns := by
  intro r t
  have hslashes : List.Forall₂ Edit.UpToSlashes (mixedEdits 0) (mixedEdits 2) :=
    .cons (.same _) (.cons (.same _) (.cons (.same _) (.cons (.same _)
      (.cons (.change _ 0 2) (.cons (.same _) .nil)))))
  have hgiven : ∃ e ∈ mixedEdits 2, e.url? ≠ none ∨ e.ivyPatterns ≠ [] :=
    ⟨.change (.url (withSlashes "https://example.org" 2)), by simp [mixedEdits], .inl nofun⟩
  obtain ⟨hartifacts, hivy, -⟩ := patterns_of_editAll .empty (.numbered 1) (mixedEdits 2)
  obtain ⟨-, -, -, -, hsame, -⟩ := patterns_of_editAll .empty (.numbered 0) (mixedEdits 0)
  refine ⟨?_, hslashes, hgiven, hartifacts.trans ?_, (hivy hgiven).trans ?_,
    hsame _ _ _ hslashes⟩
  · decide +kernel
  · decide +kernel
  · decide +kernel

end IvyRepository

end Depot
