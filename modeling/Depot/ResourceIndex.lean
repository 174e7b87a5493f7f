import Depot.Path

/-!
# The index of downloaded resources

A finite map from URLs to what was downloaded from them. Storing under a URL replaces what stands
there, and clearing a URL removes it; neither touches another URL.
-/

namespace Depot

/-- What is known of a downloaded resource. -/
structure Resource where
  file : Path
  cachedAt : Int
  etag : Option String
  contentLength : Option Nat
  deriving DecidableEq, Repr

/-- A finite map from URLs to resources. -/
structure ResourceIndex where
  entries : List (String × Resource)
  distinct : (entries.map Prod.fst).Nodup

namespace ResourceIndex

/-- Nothing was downloaded. -/
def empty : ResourceIndex := ⟨[], List.nodup_nil⟩

instance : Inhabited ResourceIndex := ⟨empty⟩

/-- The resource of a URL. -/
def lookup (x : ResourceIndex) (url : String) : Option Resource :=
  x.entries.lookup url

/-- The entries of all other URLs. -/
def others (url : String) (entries : List (String × Resource)) : List (String × Resource) :=
  entries.filter (·.1 != url)

theorem nodup_others (url : String) {entries : List (String × Resource)}
    (h : (entries.map Prod.fst).Nodup) : ((others url entries).map Prod.fst).Nodup :=
  h.sublist (List.filter_sublist.map _)

theorem not_mem_others (url : String) (entries : List (String × Resource)) :
    url ∉ (others url entries).map Prod.fst := by
  simp [others]

/-- The index without a URL. -/
def clear (x : ResourceIndex) (url : String) : ResourceIndex :=
  ⟨others url x.entries, nodup_others url x.distinct⟩

/-- The index with the resource of one URL set. -/
def store (x : ResourceIndex) (url : String) (r : Resource) : ResourceIndex :=
  ⟨(url, r) :: others url x.entries,
    List.nodup_cons.2 ⟨not_mem_others url x.entries, nodup_others url x.distinct⟩⟩

/-- The number of URLs with a resource. -/
def size (x : ResourceIndex) : Nat :=
  x.entries.length

/-- Whether no URL has a resource. -/
def isEmpty (x : ResourceIndex) : Bool :=
  x.size == 0

end ResourceIndex

end Depot
