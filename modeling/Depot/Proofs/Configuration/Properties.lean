import Depot.Json.Basic
import Mathlib.Data.List.Nodup

/-!
# Property maps as finite maps

The keys of a property map are distinct, so that an entry is told by its key and looking a key up
finds the only entry there is.
-/

namespace Depot

/-- In a list with distinct keys, a field is what its key is looked up to. -/
lemma lookup_eq_some_iff_mem {fields : List (String × Json)} (h : (fields.map Prod.fst).Nodup)
    {key : String} {value : Json} : fields.lookup key = some value ↔ (key, value) ∈ fields := by
  induction fields with
  | nil => simp
  | cons e rest ih =>
    obtain ⟨k, v⟩ := e
    obtain ⟨hk, hrest⟩ := List.nodup_cons.1 h
    by_cases heq : key = k
    · subst heq
      have hnot : (key, value) ∉ rest := fun hmem => hk (List.mem_map.2 ⟨_, hmem, rfl⟩)
      rw [List.lookup_cons_self, List.mem_cons]
      simp [hnot, eq_comm]
    · have hbeq : (key == k) = false := beq_false_of_ne heq
      rw [List.lookup_cons, hbeq]
      simp [heq, ih hrest]

namespace Properties

variable {m : Properties} {key : String} {value : Json}

lemma nodup_keys (m : Properties) : (m.entries.map Prod.fst).Nodup := by
  rw [List.Nodup, List.pairwise_map]
  refine m.ordered.imp ?_
  intro a b hlt heq
  rw [heq] at hlt
  exact String.lt_irrefl _ hlt

lemma get?_eq_some_iff : m.get? key = some value ↔ (key, value) ∈ m.entries :=
  lookup_eq_some_iff_mem m.nodup_keys

lemma contains_iff : m.contains key = true ↔ ∃ value, m.get? key = some value := by
  simp only [get?_eq_some_iff, contains, List.any_eq_true, beq_iff_eq, Prod.exists]
  constructor
  · rintro ⟨k, v, hmem, rfl⟩
    exact ⟨v, hmem⟩
  · rintro ⟨v, hmem⟩
    exact ⟨key, v, hmem, rfl⟩

lemma contains_eq_false_iff : m.contains key = false ↔ m.get? key = none := by
  rw [← Bool.not_eq_true, contains_iff, Option.eq_none_iff_forall_ne_some]
  push Not
  rfl

/-! ### A map and its entries -/

lemma setField_of_forall_lt {fields : List (String × Json)} (h : ∀ e ∈ fields, e.1 < key) :
    setField key value fields = fields ++ [(key, value)] := by
  induction fields with
  | nil => rfl
  | cons e rest ih =>
    obtain ⟨k, v⟩ := e
    obtain ⟨hk, hrest⟩ := List.forall_mem_cons.1 h
    have hlt : ¬ key < k := fun hlt => String.lt_irrefl _ (String.lt_trans hk hlt)
    have hne : key ≠ k := by
      rintro rfl
      exact String.lt_irrefl _ hk
    rw [setField, if_neg hlt, if_neg hne, ih hrest, List.cons_append]

lemma ext {m n : Properties} (h : m.entries = n.entries) : m = n := by
  cases m
  cases n
  cases h
  rfl

/-- Entries in ascending order are set one behind the other. -/
lemma foldl_insert {fields : List (String × Json)}
    (h : (m.entries ++ fields).Pairwise fun a b => a.1 < b.1) :
    (fields.foldl (fun m f => m.insert f.1 f.2) m).entries = m.entries ++ fields := by
  induction fields generalizing m with
  | nil => simp
  | cons e rest ih =>
    have hlast : ∀ d ∈ m.entries, d.1 < e.1 := fun d hd =>
      (List.pairwise_append.1 h).2.2 d hd e List.mem_cons_self
    have hentries : (m.insert e.1 e.2).entries = m.entries ++ [e] := setField_of_forall_lt hlast
    have hpairwise : ((m.insert e.1 e.2).entries ++ rest).Pairwise fun a b => a.1 < b.1 := by
      rwa [hentries, ← List.append_cons]
    rw [List.foldl_cons, ih hpairwise, hentries, ← List.append_cons]

/-- Every map is the map of its own entries. -/
@[simp] lemma ofList_entries (m : Properties) : ofList m.entries = m := by
  have h : (ofList m.entries).entries = m.entries := foldl_insert (m := empty) m.ordered
  exact ext h

end Properties

end Depot
