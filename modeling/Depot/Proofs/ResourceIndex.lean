import Depot.ResourceIndex
import Mathlib.Data.List.Basic
import Mathlib.Data.List.Induction

/-!
# The index as a finite map

What an index has for a URL after a run of operations is decided by the last write to that URL: the
resource that it stored, or nothing if it cleared the URL or if there was none. Operations on other
URLs have no part in it, and the size of the index is the number of URLs that were stored last.
-/

namespace Depot

/-- Without the entries of one key, every other key is looked up as before. -/
lemma lookup_filter_ne {α : Type} (key k : String) (entries : List (String × α)) :
    (entries.filter (·.1 != key)).lookup k = if k = key then none else entries.lookup k := by
  induction entries with
  | nil => simp
  | cons e rest ih =>
    obtain ⟨j, a⟩ := e
    by_cases hj : j = key
    · subst hj
      rw [List.filter_cons_of_neg (by simp), ih]
      split_ifs with hk
      · rfl
      · rw [List.lookup_cons, beq_false_of_ne hk]
    · rw [List.filter_cons_of_pos (by simpa using hj), List.lookup_cons, List.lookup_cons, ih]
      by_cases hk : k = j
      · subst hk
        simp [hj]
      · rw [beq_false_of_ne hk]

/-- An entry set in the place of all entries of its key. -/
lemma lookup_cons_filter_ne {α : Type} (key k : String) (a : α) (entries : List (String × α)) :
    ((key, a) :: entries.filter (·.1 != key)).lookup k =
      if k = key then some a else entries.lookup k := by
  rw [List.lookup_cons, lookup_filter_ne]
  by_cases h : k = key
  · simp [h]
  · rw [beq_false_of_ne h, if_neg h, if_neg h]

namespace ResourceIndex

/-! ### Operations -/

/-- An operation on an index. -/
inductive Operation where
  | store (url : String) (r : Resource)
  | clear (url : String)
  | lookup (url : String)
  deriving DecidableEq

/-- The URL that an operation is about. -/
def Operation.url : Operation → String
  | .store url _ | .clear url | .lookup url => url

/-- An operation that settles what stands under a URL from then on. -/
def Operation.Writes (url : String) : Operation → Prop
  | .store u _ | .clear u => u = url
  | .lookup _ => False

/-- Runs an operation. A lookup is answered and changes nothing. -/
def run (x : ResourceIndex) : Operation → Option Resource × ResourceIndex
  | .store url r => (none, x.store url r)
  | .clear url => (none, x.clear url)
  | .lookup url => (x.lookup url, x)

/-- The index after some operations. -/
def runAll (ops : List Operation) (x : ResourceIndex) : ResourceIndex :=
  ops.foldl (fun x op => (x.run op).2) x

/-- The last write to a URL stored a resource. -/
def StoredLast (ops : List Operation) (url : String) (r : Resource) : Prop :=
  ∃ before after, ops = before ++ .store url r :: after ∧ ∀ op ∈ after, ¬ op.Writes url

variable {x y : ResourceIndex} {url : String} {r : Resource} {ops : List Operation} {op : Operation}

/-! ### Single writes -/

lemma lookup_clear (x : ResourceIndex) (u url : String) :
    (x.clear u).lookup url = if url = u then none else x.lookup url :=
  lookup_filter_ne u url x.entries

lemma lookup_store (x : ResourceIndex) (u url : String) (r : Resource) :
    (x.store u r).lookup url = if url = u then some r else x.lookup url :=
  lookup_cons_filter_ne u url r x.entries

/-! ### Runs of operations -/

lemma runAll_append_singleton (ops : List Operation) (op : Operation) (x : ResourceIndex) :
    runAll (ops ++ [op]) x = ((runAll ops x).run op).2 := by
  rw [runAll, List.foldl_append]
  rfl

lemma not_storedLast_nil : ¬ StoredLast [] url r := by
  rintro ⟨before, after, h, -⟩
  exact absurd h (by simp)

lemma storedLast_append_singleton : StoredLast (ops ++ [op]) url r ↔
    op = .store url r ∨ ¬ op.Writes url ∧ StoredLast ops url r := by
  constructor
  · rintro ⟨before, after, h, hafter⟩
    rcases List.eq_nil_or_concat' after with rfl | ⟨after, last, rfl⟩
    · exact .inl (List.append_inj_right' h rfl |> List.singleton_inj.1)
    · rw [← List.cons_append, ← List.append_assoc] at h
      obtain ⟨rfl, hlast⟩ := List.append_inj' h rfl
      rw [List.singleton_inj.1 hlast]
      obtain ⟨hafter, hnot⟩ := List.forall_mem_append.1 hafter
      exact .inr ⟨hnot last (List.mem_singleton_self last), before, after, rfl, hafter⟩
  · rintro (rfl | ⟨hnot, before, after, rfl, hafter⟩)
    · exact ⟨ops, [], rfl, nofun⟩
    · refine ⟨before, after ++ [op], by simp, ?_⟩
      rw [List.forall_mem_append, List.forall_mem_singleton]
      exact ⟨hafter, hnot⟩

/-- What one operation leaves under a URL: what it stored there, or what was there unless it wrote
to the URL. -/
lemma lookup_run_iff : (x.run op).2.lookup url = some r ↔
    op = .store url r ∨ ¬ op.Writes url ∧ x.lookup url = some r := by
  cases op with
  | store u s =>
    change (x.store u s).lookup url = some r ↔ _
    rw [lookup_store]
    by_cases h : url = u
    · subst h
      simp [Operation.Writes]
    · simp [Operation.Writes, h, Ne.symm h]
  | clear u =>
    change (x.clear u).lookup url = some r ↔ _
    rw [lookup_clear]
    by_cases h : url = u
    · subst h
      simp [Operation.Writes]
    · simp [Operation.Writes, h, Ne.symm h]
  | lookup u => simp [run, Operation.Writes]

theorem lookup_runAll_iff :
    (runAll ops .empty).lookup url = some r ↔ StoredLast ops url r := by
  induction ops using List.reverseRecOn with
  | nil => exact iff_of_false nofun not_storedLast_nil
  | append_singleton ops op ih =>
    rw [runAll_append_singleton, lookup_run_iff, storedLast_append_singleton, ih]

/-! ### One URL by itself -/

lemma lookup_run_of_ne (h : op.url ≠ url) : (x.run op).2.lookup url = x.lookup url := by
  cases op with
  | store u s => exact (lookup_store x u url s).trans (if_neg (Ne.symm h))
  | clear u => exact (lookup_clear x u url).trans (if_neg (Ne.symm h))
  | lookup u => rfl

lemma lookup_run_congr (h : x.lookup url = y.lookup url) (op : Operation) :
    (x.run op).2.lookup url = (y.run op).2.lookup url := by
  refine Option.ext fun r => ?_
  rw [lookup_run_iff, lookup_run_iff, h]

theorem lookup_runAll_filter (ops : List Operation) (url : String) (x : ResourceIndex) :
    (runAll ops x).lookup url = (runAll (ops.filter (·.url == url)) x).lookup url := by
  induction ops using List.reverseRecOn with
  | nil => rfl
  | append_singleton ops op ih =>
    rw [runAll_append_singleton, List.filter_append]
    by_cases h : op.url = url
    · rw [List.filter_cons_of_pos (by simpa using h), List.filter_nil, runAll_append_singleton]
      exact lookup_run_congr ih op
    · rw [List.filter_cons_of_neg (by simpa using h), List.filter_nil, List.append_nil,
        lookup_run_of_ne h, ih]

/-! ### The whole index -/

/-- The URLs that have a resource, each once. -/
def urls (x : ResourceIndex) : List String :=
  x.entries.map Prod.fst

lemma mem_urls_iff : url ∈ x.urls ↔ ∃ r, x.lookup url = some r := by
  rw [← Option.isSome_iff_exists, lookup, List.lookup_isSome_iff, urls, List.mem_map]
  simp only [beq_iff_eq, eq_comm (a := url)]

lemma size_eq (x : ResourceIndex) : x.size = x.urls.length :=
  (List.length_map Prod.fst).symm

lemma isEmpty_iff : x.isEmpty = true ↔ ∀ url, url ∉ x.urls := by
  rw [isEmpty, beq_iff_eq, size_eq, List.length_eq_zero_iff, List.eq_nil_iff_forall_not_mem]

/-- An index is the finite map that some operations make of nothing: under a URL stands what was
stored there last, unless it was cleared since, whatever was done to other URLs; and as many URLs
have a resource as were stored last. -/
structure Reflects (x : ResourceIndex) (ops : List Operation) : Prop where
  lookup : ∀ url r, x.run (.lookup url) = (some r, x) ↔ StoredLast ops url r
  others : ∀ url, x.lookup url = (runAll (ops.filter (·.url == url)) .empty).lookup url
  size : ∃ urls : List String, urls.Nodup ∧ (∀ url, url ∈ urls ↔ ∃ r, StoredLast ops url r) ∧
    x.size = urls.length
  isEmpty : x.isEmpty = true ↔ ∀ url r, ¬ StoredLast ops url r

theorem reflects_runAll (ops : List Operation) : (runAll ops .empty).Reflects ops where
  lookup url r := by
    rw [← lookup_runAll_iff]
    simp [run]
  others url := lookup_runAll_filter ops url .empty
  size := by
    refine ⟨(runAll ops .empty).urls, (runAll ops .empty).distinct, fun url => ?_, size_eq _⟩
    simp only [mem_urls_iff, lookup_runAll_iff]
  isEmpty := by
    simp only [isEmpty_iff, mem_urls_iff, lookup_runAll_iff, not_exists]

end ResourceIndex

end Depot
