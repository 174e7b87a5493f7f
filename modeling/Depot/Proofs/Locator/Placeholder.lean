import Depot.Locator
import Mathlib

/-!
# The cut of a text

A text is cut at its placeholders from left to right: each of them is the first one that opens in
what is left of the text, and the cut goes on behind its closing brace (`Placeholder.Cuts`). Every
text has exactly one cut. The expansion of a text fills it, or fails for the first of its keys that
has no value (`Locator.expand_by_cut`).
-/

namespace Depot

namespace Placeholder

/-! ### Cuts -/

/-- A placeholder at the front of a text, with its key and what follows. The key is not empty and
ends at the first closing brace. -/
structure Opens (cs name after : List Char) : Prop where
  text : cs = '$' :: '\x7b' :: (name ++ '\x7d' :: after)
  nonempty : name ≠ []
  closed : '\x7d' ∉ name

/-- A text in pieces: the plain text in front of each placeholder with its key, and the plain text
behind the last one. -/
structure Cut where
  placeholders : List (List Char × List Char)
  rest : List Char
  deriving DecidableEq

/-- The cut of a text. No placeholder opens in plain text, nor anywhere in front of the one at which
the text is cut first. -/
inductive Cuts : List Char → Cut → Prop where
  | plain {cs : List Char} (h : ∀ s, s <:+ cs → ∀ name after, ¬ Opens s name after) : Cuts cs ⟨[], cs⟩
  | placeholder {cs front s name after : List Char} {c : Cut} (hcs : cs = front ++ s)
      (hs : Opens s name after)
      (hfirst : ∀ t, t <:+ cs → s.length < t.length → ∀ name after, ¬ Opens t name after)
      (hafter : Cuts after c) : Cuts cs ⟨(front, name) :: c.placeholders, c.rest⟩

namespace Cut

/-- The keys of a cut text in their order. -/
def keys (c : Cut) : List String :=
  c.placeholders.map fun p => String.ofList p.2

/-- The plain pieces as they are, with a value in the place of each placeholder. -/
def filled (c : Cut) (value : String → String) : String :=
  String.ofList
    (c.placeholders.flatMap (fun p => p.1 ++ (value (String.ofList p.2)).toList) ++ c.rest)

/-- The parts of a cut text. -/
def parts (c : Cut) : List Part :=
  c.placeholders.flatMap (fun p => p.1.map .plain ++ [.key p.2]) ++ c.rest.map .plain

/-- A cut text with one more plain character at its front. -/
def prepend (x : Char) : Cut → Cut
  | ⟨[], rest⟩ => ⟨[], x :: rest⟩
  | ⟨(front, name) :: more, rest⟩ => ⟨(x :: front, name) :: more, rest⟩

lemma parts_prepend (x : Char) (c : Cut) : (c.prepend x).parts = .plain x :: c.parts := by
  obtain ⟨(_ | ⟨⟨front, name⟩, more⟩), rest⟩ := c <;> simp [prepend, parts]

end Cut

variable {cs rest name after name' after' : List Char} {c d : Cut} {x : Char}

/-! ### Where a placeholder opens -/

lemma readKey?_append (h : '\x7d' ∉ name) (after : List Char) :
    readKey? (name ++ '\x7d' :: after) = if name = [] then none else some (name, after) := by
  have hname : ∀ c ∈ name, (c != '\x7d') = true := by
    intro c hc
    rw [bne_iff_ne]
    rintro rfl
    exact h hc
  simp [readKey?, List.takeWhile_append_of_pos hname]

lemma readKey?_of_notMem (h : '\x7d' ∉ cs) : readKey? cs = none := by
  have hcs : cs.takeWhile (· != '\x7d') = cs := by
    rw [List.takeWhile_eq_self_iff]
    intro c hc
    rw [bne_iff_ne]
    rintro rfl
    exact h hc
  simp [readKey?, hcs]

lemma readKey?_eq_some_iff : readKey? cs = some (name, after) ↔
    cs = name ++ '\x7d' :: after ∧ name ≠ [] ∧ '\x7d' ∉ name := by
  constructor
  · intro h
    by_cases hmem : '\x7d' ∈ cs
    · obtain ⟨front, back, rfl, hfront⟩ := List.eq_append_cons_of_mem hmem
      rw [readKey?_append hfront] at h
      split_ifs at h with hempty
      cases h
      exact ⟨rfl, hempty, hfront⟩
    · rw [readKey?_of_notMem hmem] at h
      cases h
  · rintro ⟨rfl, hname, hclosed⟩
    rw [readKey?_append hclosed, if_neg hname]

lemma opens_iff : Opens cs name after ↔
    ∃ rest, cs = '$' :: '\x7b' :: rest ∧ readKey? rest = some (name, after) := by
  simp only [readKey?_eq_some_iff]
  constructor
  · rintro ⟨rfl, hname, hclosed⟩
    exact ⟨_, rfl, rfl, hname, hclosed⟩
  · rintro ⟨_, rfl, rfl, hname, hclosed⟩
    exact ⟨rfl, hname, hclosed⟩

lemma Opens.length_lt (h : Opens cs name after) : after.length < cs.length := by
  rw [h.text]
  simp only [List.length_cons, List.length_append]
  omega

lemma Opens.unique (h : Opens cs name after) (h' : Opens cs name' after') :
    name = name' ∧ after = after' := by
  obtain ⟨rest, rfl, hkey⟩ := opens_iff.1 h
  obtain ⟨rest', heq, hkey'⟩ := opens_iff.1 h'
  cases heq
  rw [hkey] at hkey'
  cases hkey'
  exact ⟨rfl, rfl⟩

lemma cut_of_opens (h : Opens cs name after) : cut cs = .key name :: cut after := by
  obtain ⟨rest, rfl, hkey⟩ := opens_iff.1 h
  rw [cut]
  split
  · next name' after' heq =>
    rw [hkey] at heq
    cases heq
    rfl
  · next hnone =>
    rw [hkey] at hnone
    cases hnone

lemma cut_cons_of_not_opens (h : ∀ name after, ¬ Opens (x :: cs) name after) :
    cut (x :: cs) = .plain x :: cut cs := by
  by_cases hbrace : ∃ rest, x = '$' ∧ cs = '\x7b' :: rest
  · obtain ⟨rest, rfl, rfl⟩ := hbrace
    rw [cut]
    split
    · next name after hkey => exact absurd (opens_iff.2 ⟨rest, rfl, hkey⟩) (h name after)
    · rfl
  · rw [cut]
    intro rest hx hcs
    exact hbrace ⟨rest, hx, hcs⟩

/-! ### The one cut of a text -/

lemma Cuts.of_empty : Cuts [] ⟨[], []⟩ := by
  apply Cuts.plain
  intro s hs name after hopens
  have hlength := hopens.length_lt
  rw [List.suffix_nil.1 hs] at hlength
  exact absurd hlength (Nat.not_lt_zero _)

lemma Cuts.prepend (h : ∀ name after, ¬ Opens (x :: cs) name after) (hc : Cuts cs c) :
    Cuts (x :: cs) (c.prepend x) := by
  cases hc with
  | plain hplain =>
    apply Cuts.plain
    intro s hs
    rcases List.suffix_cons_iff.1 hs with rfl | hs
    · exact h
    · exact hplain s hs
  | placeholder hcs hs hfirst hafter =>
    apply Cuts.placeholder (by rw [hcs, List.cons_append]) hs _ hafter
    intro t ht hlength
    rcases List.suffix_cons_iff.1 ht with rfl | ht
    · exact h
    · exact hfirst t ht hlength

/-- Every text has a cut, of which the parts of the text are those. -/
theorem exists_cuts (cs : List Char) : ∃ c, Cuts cs c ∧ cut cs = c.parts := by
  -- The text gets shorter by a placeholder that opens at its front, or else by one character.
  induction hn : cs.length using Nat.strong_induction_on generalizing cs with
  | _ n ih =>
    subst hn
    by_cases hopens : ∃ name after, Opens cs name after
    · obtain ⟨name, after, h⟩ := hopens
      obtain ⟨c, hc, hparts⟩ := ih after.length h.length_lt after rfl
      refine ⟨⟨([], name) :: c.placeholders, c.rest⟩, .placeholder rfl h ?_ hc, ?_⟩
      · intro t ht hlength
        exact absurd ht.length_le (Nat.not_le_of_lt hlength)
      · rw [cut_of_opens h, hparts]
        rfl
    · push Not at hopens
      cases cs with
      | nil => exact ⟨⟨[], []⟩, .of_empty, by simp [cut, Cut.parts]⟩
      | cons x cs =>
        obtain ⟨c, hc, hparts⟩ := ih cs.length (Nat.lt_succ_self _) cs rfl
        refine ⟨c.prepend x, hc.prepend hopens, ?_⟩
        rw [cut_cons_of_not_opens hopens, hparts, Cut.parts_prepend]

/-- Two places at which a text may be cut first are one. -/
lemma eq_of_first {front s front' s' : List Char} (h : cs = front ++ s) (h' : cs = front' ++ s')
    (hs : Opens s name after) (hs' : Opens s' name' after')
    (hfirst : ∀ t, t <:+ cs → s.length < t.length → ∀ name after, ¬ Opens t name after)
    (hfirst' : ∀ t, t <:+ cs → s'.length < t.length → ∀ name after, ¬ Opens t name after) :
    front = front' ∧ s = s' := by
  have hsuffix : s <:+ cs := ⟨front, h.symm⟩
  have hsuffix' : s' <:+ cs := ⟨front', h'.symm⟩
  have hle : s'.length ≤ s.length := by
    by_contra hlt
    exact hfirst s' hsuffix' (Nat.lt_of_not_le hlt) name' after' hs'
  have hle' : s.length ≤ s'.length := by
    by_contra hlt
    exact hfirst' s hsuffix (Nat.lt_of_not_le hlt) name after hs
  obtain rfl : s = s' := (List.suffix_of_suffix_length_le hsuffix hsuffix' hle').eq_of_length
    (Nat.le_antisymm hle' hle)
  rw [h] at h'
  exact ⟨List.append_cancel_right h', rfl⟩

theorem Cuts.unique (hc : Cuts cs c) (hd : Cuts cs d) : c = d := by
  induction hc generalizing d with
  | plain h =>
    cases hd with
    | plain => rfl
    | placeholder hcs hs => exact absurd hs (h _ ⟨_, hcs.symm⟩ _ _)
  | placeholder hcs hs hfirst _ ih =>
    cases hd with
    | plain h => exact absurd hs (h _ ⟨_, hcs.symm⟩ _ _)
    | placeholder hcs' hs' hfirst' hafter' =>
      obtain ⟨rfl, rfl⟩ := eq_of_first hcs hcs' hs hs' hfirst hfirst'
      obtain ⟨rfl, rfl⟩ := hs.unique hs'
      rw [ih hafter']

/-! ### Filling -/

lemma fill_plain (value? : String → Option String) (front : List Char) (parts : List Part) :
    fill value? (front.map .plain ++ parts) = (fill value? parts).map (front ++ ·) := by
  induction front with
  | nil => cases h : fill value? parts <;> simp [h, Except.map]
  | cons x front ih =>
    rw [List.map_cons, List.cons_append, fill, ih]
    cases fill value? parts <;> rfl

/-- A cut text is filled with the values of its keys, unless one of them has none. -/
lemma fill_parts (value? : String → Option String) (c : Cut) : fill value? c.parts =
    match c.keys.find? fun key => (value? key).isNone with
    | some key => .error key
    | none => .ok (c.filled fun key => (value? key).getD "").toList := by
  obtain ⟨placeholders, rest⟩ := c
  induction placeholders with
  | nil =>
    have hrest := fill_plain value? rest []
    rw [List.append_nil] at hrest
    simp [Cut.parts, Cut.keys, Cut.filled, hrest, fill, Except.map]
  | cons p more ih =>
    obtain ⟨front, name⟩ := p
    have hparts : Cut.parts ⟨(front, name) :: more, rest⟩ =
        front.map .plain ++ .key name :: Cut.parts ⟨more, rest⟩ := by
      simp [Cut.parts]
    rw [hparts, fill_plain, fill]
    cases hvalue : value? (String.ofList name) with
    | none => simp [Cut.keys, hvalue, Except.map]
    | some value =>
      simp only [ih]
      simp only [Cut.keys, List.map_cons, List.find?_cons, hvalue, Option.isNone_some]
      cases (more.map fun p => String.ofList p.2).find? fun key => (value? key).isNone with
      | some key => rfl
      | none => simp [Cut.filled, hvalue, Except.map]

end Placeholder

/-! ### Keys -/

namespace Locator

open Placeholder (Cut Cuts)

variable {front s t : String}

lemma dropFront?_append (front t : String) : dropFront? front (front ++ t) = some t := by
  simp [dropFront?, ← String.length_toList]

lemma dropFront?_eq_none (h : ∀ t, s ≠ front ++ t) : dropFront? front s = none := by
  rw [dropFront?, if_neg]
  intro hfront
  obtain ⟨rest, hrest⟩ := List.isPrefixOf_iff_prefix.1 hfront
  apply h (String.ofList rest)
  rw [← String.toList_inj, String.toList_append, String.toList_ofList, hrest]

/-- A key with neither of the two words in front of it is looked up as it is. -/
lemma value?_eq_property? (l : Locator) (henv : ∀ t, s ≠ "env." ++ t) (hsys : ∀ t, s ≠ "sys." ++ t) :
    l.value? s = l.property? s := by
  rw [value?, dropFront?_eq_none henv, dropFront?_eq_none hsys]
  rfl

lemma value?_env (l : Locator) (name : String) :
    l.value? ("env." ++ name) = l.environment.lookup name := by
  rw [value?, dropFront?_append]

lemma value?_sys (l : Locator) (name : String) : l.value? ("sys." ++ name) = l.property? name := by
  have henv : ∀ t, "sys." ++ name ≠ "env." ++ t := by
    intro t heq
    have hlist := congrArg String.toList heq
    simp at hlist
  rw [value?, dropFront?_eq_none henv, dropFront?_append]
  rfl

/-! ### Expansion -/

variable {l : Locator} {text : String} {c : Cut} {e : LocatorError}

lemma expand_of_cuts (l : Locator) (h : Cuts text.toList c) : l.expand text =
    match c.keys.find? fun key => (l.value? key).isNone with
    | some key => .error (.unresolved key text)
    | none => .ok (c.filled fun key => (l.value? key).getD "") := by
  obtain ⟨d, hd, hparts⟩ := Placeholder.exists_cuts text.toList
  obtain rfl := hd.unique h
  rw [expand, Placeholder.expand, hparts, Placeholder.fill_parts]
  cases d.keys.find? fun key => (l.value? key).isNone with
  | some key => rfl
  | none => simp [Except.map, Except.mapError]

lemma expand_eq_ok_iff (h : Cuts text.toList c) {s : String} : l.expand text = .ok s ↔
    (∀ key ∈ c.keys, (l.value? key).isSome = true) ∧
      s = c.filled fun key => (l.value? key).getD "" := by
  rw [expand_of_cuts l h]
  cases hfind : c.keys.find? fun key => (l.value? key).isNone with
  | none =>
    have hall : ∀ key ∈ c.keys, (l.value? key).isSome = true := by
      intro key hkey
      simpa [Option.isSome_iff_ne_none] using List.find?_eq_none.1 hfind key hkey
    constructor
    · intro hs
      cases hs
      exact ⟨hall, rfl⟩
    · rintro ⟨-, rfl⟩
      rfl
  | some key =>
    have hnone := List.find?_some hfind
    have hmem := List.mem_of_find?_eq_some hfind
    simp only [reduceCtorEq, false_iff, not_and]
    intro hall
    rw [Option.isNone_iff_eq_none] at hnone
    have hsome := hall key hmem
    rw [hnone] at hsome
    cases hsome

lemma expand_eq_error_iff (h : Cuts text.toList c) : l.expand text = .error e ↔
    ∃ before key after, c.keys = before ++ key :: after ∧
      (∀ k ∈ before, (l.value? k).isSome = true) ∧ l.value? key = none ∧
        e = .unresolved key text := by
  have hfirst : ∀ key, (c.keys.find? fun key => (l.value? key).isNone) = some key ↔
      ∃ before after, c.keys = before ++ key :: after ∧
        (∀ k ∈ before, (l.value? k).isSome = true) ∧ l.value? key = none := by
    intro key
    rw [List.find?_eq_some_iff_append]
    simp only [Option.isNone_iff_eq_none, Option.not_isNone]
    tauto
  rw [expand_of_cuts l h]
  cases hfind : c.keys.find? fun key => (l.value? key).isNone with
  | none =>
    simp only [reduceCtorEq, false_iff]
    rintro ⟨before, key, after, hkeys, hbefore, hnone, -⟩
    rw [(hfirst key).2 ⟨before, after, hkeys, hbefore, hnone⟩] at hfind
    cases hfind
  | some key =>
    constructor
    · intro he
      obtain ⟨before, after, hkeys, hbefore, hnone⟩ := (hfirst key).1 hfind
      cases he
      exact ⟨before, key, after, hkeys, hbefore, hnone, rfl⟩
    · rintro ⟨before, key', after, hkeys, hbefore, hnone, rfl⟩
      rw [(hfirst key').2 ⟨before, after, hkeys, hbefore, hnone⟩] at hfind
      cases hfind
      rfl

/-- Placeholders are expanded in one pass over the cut of the text, of which there is exactly one. The
expansion succeeds if every key of the cut has a value, with the values in the places of the
placeholders; otherwise it names the first key without a value and the whole text. A key that begins
with one of the two words is an environment variable or a property, and any other one means what it
means behind the word for properties. -/
theorem expand_by_cut (l : Locator) (text : String) :
    (∃ c : Cut, (∀ d, Cuts text.toList d ↔ d = c) ∧
      (∀ s, l.expand text = .ok s ↔ (∀ key ∈ c.keys, (l.value? key).isSome = true) ∧
        s = c.filled fun key => (l.value? key).getD "") ∧
      ∀ e, l.expand text = .error e ↔ ∃ before key after, c.keys = before ++ key :: after ∧
        (∀ k ∈ before, (l.value? k).isSome = true) ∧ l.value? key = none ∧
          e = .unresolved key text) ∧
    (∀ key, (LocatorError.unresolved key text).message =
      "Cannot resolve placeholder '" ++ key ++ "' in value '" ++ text ++ "'") ∧
    (∀ name, l.value? ("env." ++ name) = l.environment.lookup name) ∧
    (∀ name, l.value? ("sys." ++ name) =
      if name = "user.home" then l.home.map Path.text else l.properties.lookup name) ∧
    ∀ name, (∀ t, name ≠ "env." ++ t) → (∀ t, name ≠ "sys." ++ t) →
      l.value? name = l.value? ("sys." ++ name) := by
  refine ⟨?_, fun key => rfl, value?_env l, value?_sys l, ?_⟩
  · obtain ⟨c, hc, -⟩ := Placeholder.exists_cuts text.toList
    refine ⟨c, fun d => ⟨fun hd => hd.unique hc, ?_⟩, fun s => expand_eq_ok_iff hc,
      fun e => expand_eq_error_iff hc⟩
    rintro rfl
    exact hc
  · intro name henv hsys
    rw [value?_sys, value?_eq_property? l henv hsys]

/-- A text with an empty key, a key that looks like a placeholder, a value that looks like one, and
a placeholder that is not closed. -/
theorem expand_by_cut_nested :
    let l : Locator := {
      home := some ⟨"/home/user"⟩
      environment := [("N", "é")]
      properties := [("a$\x7bb", "$\x7buser.home\x7d")] }
    let text := "$\x7b\x7d/$\x7ba$\x7bb\x7d$\x7benv.N\x7d$\x7b"
    (∃ c, Cuts text.toList c ∧ (∀ key ∈ c.keys, (l.value? key).isSome = true) ∧
      c.filled (fun key => (l.value? key).getD "") = "$\x7b\x7d/$\x7buser.home\x7dé$\x7b") ∧
    (∀ t, "user.home" ≠ "env." ++ t) ∧ (∀ t, "user.home" ≠ "sys." ++ t) ∧
      l.value? "user.home" = some "/home/user" := by
  intro l text
  obtain ⟨⟨c, hcut, hok, -⟩, -, -, hsys, hbare⟩ := expand_by_cut l text
  have hexpand : l.expand text = .ok "$\x7b\x7d/$\x7buser.home\x7dé$\x7b" := by cbv
  have henv : ∀ t, "user.home" ≠ "env." ++ t := fun t h => by
    simpa using congrArg String.toList h
  have hword : ∀ t, "user.home" ≠ "sys." ++ t := fun t h => by
    simpa using congrArg String.toList h
  obtain ⟨hall, hfilled⟩ := (hok _).1 hexpand
  refine ⟨⟨c, (hcut c).2 rfl, hall, hfilled.symm⟩, henv, hword, ?_⟩
  rw [hbare _ henv hword, hsys]
  rfl

end Locator

end Depot
