import Depot.Roster
import Mathlib.Data.List.Nodup
import Mathlib.Data.List.Perm.Subperm

/-!
# Names in a roster

Looking a name up, and finding a free one. A number behind a base is told by the name alone, and so
is the base if it does not end in a digit. The search for a free number always ends: a roster that
takes the base itself has one repository fewer than there are candidates.
-/

namespace Depot

namespace Roster

variable {s : Roster} {name base : String}

/-! ### Looking a name up -/

@[simp] lemma takes_iff : s.takes name = true ↔ name ∈ s.names := by
  simp [takes, names]

@[simp] lemma takes_eq_false_iff : s.takes name = false ↔ name ∉ s.names := by
  rw [← takes_iff, Bool.not_eq_true]

lemma get?_eq_none_iff : s.get? name = none ↔ name ∉ s.names := by
  simp [get?, names]

lemma mem_of_get?_eq_some {r : Repository} (h : s.get? name = some r) :
    r ∈ s.declared ∧ r.name = name := by
  refine ⟨List.mem_of_find?_eq_some h, ?_⟩
  simpa using List.find?_some h

/-- Under distinct names a repository is told by its name. -/
lemma eq_of_name_eq (h : s.names.Nodup) {r t : Repository} (hr : r ∈ s.declared)
    (ht : t ∈ s.declared) (hname : r.name = t.name) : r = t :=
  List.inj_on_of_nodup_map h hr ht hname

lemma get?_eq_some_iff (h : s.names.Nodup) {r : Repository} :
    s.get? name = some r ↔ r ∈ s.declared ∧ r.name = name := by
  constructor
  · exact mem_of_get?_eq_some
  · rintro ⟨hr, rfl⟩
    cases ht : s.get? r.name with
    | none =>
      have hmem : r.name ∈ s.names := List.mem_map_of_mem hr
      exact absurd hmem (get?_eq_none_iff.1 ht)
    | some t =>
      obtain ⟨hmem, hname⟩ := mem_of_get?_eq_some ht
      rw [eq_of_name_eq h hmem hr hname]

/-! ### Numbers behind a base -/

lemma toList_numbered (base : String) (n : Nat) :
    (numbered base n).toList = base.toList ++ Nat.toDigits 10 n := by
  rw [numbered, String.toList_append, Nat.toString_eq_ofList_toDigits, String.toList_ofList]

lemma numbered_ne_base (base : String) (n : Nat) : numbered base n ≠ base := by
  intro h
  have hlist := congrArg String.toList h
  rw [toList_numbered] at hlist
  exact Nat.toDigits_ne_nil (List.append_right_eq_self.1 hlist)

lemma numbered_injective (base : String) : Function.Injective (numbered base) := by
  intro i j h
  have hlist := congrArg String.toList h
  rw [toList_numbered, toList_numbered] at hlist
  have hdigits := List.append_cancel_left hlist
  rw [← Nat.ofDigitChars_ten_toDigits (n := i), hdigits, Nat.ofDigitChars_ten_toDigits]

/-- What stands in front of the digits at the end of a name. -/
def stem (name : String) : List Char :=
  (name.toList.reverse.dropWhile Char.isDigit).reverse

lemma stem_of_getLast? {c : Char} (h : base.toList.getLast? = some c) (hc : c.isDigit = false) :
    stem base = base.toList := by
  obtain ⟨front, hfront⟩ := List.getLast?_eq_some_iff.1 h
  simp [stem, hfront, hc]

/-- Digits at the end do not change the stem. -/
lemma stem_numbered (base : String) (n : Nat) : stem (numbered base n) = stem base := by
  have hdigits : ∀ c ∈ (Nat.toDigits 10 n).reverse, c.isDigit = true := fun c hc =>
    Nat.isDigit_of_mem_toDigits (by decide) (by decide) (List.mem_reverse.1 hc)
  rw [stem, stem, toList_numbered, List.reverse_append, List.dropWhile_append_of_pos hdigits]

/-! ### Free numbers -/

/-- The least number from two on that gives a free name. -/
structure LeastFree (s : Roster) (base : String) (n : Nat) : Prop where
  two_le : 2 ≤ n
  free : numbered base n ∉ s.names
  least : ∀ k, 2 ≤ k → k < n → numbered base k ∈ s.names

lemma LeastFree.unique {i j : Nat} (hi : s.LeastFree base i) (hj : s.LeastFree base j) : i = j := by
  rcases Nat.lt_trichotomy i j with h | h | h
  · exact absurd (hj.least i hi.two_le h) hi.free
  · exact h
  · exact absurd (hi.least j hj.two_le h) hj.free

/-- Not all candidates are taken: together with the base they are more names than there are
repositories. -/
lemma exists_free (h : base ∈ s.names) :
    ∃ n ∈ List.range' 2 s.declared.length, numbered base n ∉ s.names := by
  by_contra hall
  push Not at hall
  have hnodup : (base :: (List.range' 2 s.declared.length).map (numbered base)).Nodup := by
    refine List.nodup_cons.2 ⟨?_, (List.nodup_range').map (numbered_injective base)⟩
    simp [numbered_ne_base]
  have hsub : (base :: (List.range' 2 s.declared.length).map (numbered base)) ⊆ s.names := by
    intro name hname
    rcases List.mem_cons.1 hname with rfl | hname
    · exact h
    · obtain ⟨n, hn, rfl⟩ := List.mem_map.1 hname
      exact hall n hn
  have hle := (List.subperm_of_subset hnodup hsub).length_le
  simp only [List.length_cons, List.length_map, List.length_range', names] at hle
  omega

/-- For a base that is taken, the search ends at the least free number, and this is at most one
more than the number of repositories. -/
lemma freeName_spec (h : base ∈ s.names) :
    ∃ n, s.LeastFree base n ∧ n ≤ s.declared.length + 1 ∧ s.freeName base = numbered base n := by
  obtain ⟨k, hk, hfree⟩ := exists_free h
  cases hfind : (List.range' 2 s.declared.length).find? fun n => !s.takes (numbered base n) with
  | none =>
    have htaken := List.find?_eq_none.1 hfind k hk
    rw [Bool.not_eq_true, Bool.not_eq_false', takes_iff] at htaken
    exact absurd htaken hfree
  | some n =>
    obtain ⟨hn, hmem, hleast⟩ := List.find?_range'_eq_some.1 hfind
    obtain ⟨htwo, hlt⟩ := List.mem_range'_1.1 hmem
    refine ⟨n, ⟨htwo, ?_, fun j hj hjn => ?_⟩, by omega, by rw [freeName, hfind]⟩
    · simpa using hn
    · simpa using hleast j hj hjn

end Roster

end Depot
