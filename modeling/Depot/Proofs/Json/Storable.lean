import Depot.Proofs.Configuration.Properties

/-!
# Values that a file can store

A value is storable to a depth if all its numbers are integers, the keys of its objects ascend, and
its collections nest at most that deep.
-/

namespace Depot.Json

/-! ### Integers only -/

mutual

/-- Whether every number in a value is an integer. -/
def isIntegral : Json → Bool
  | .null | .bool _ | .string _ | .number (.integer _) => true
  | .number (.double _) => false
  | .array items => areIntegral items
  | .object fields => haveIntegral fields

/-- Whether every number in some items is an integer. -/
def areIntegral : List Json → Bool
  | [] => true
  | v :: rest => isIntegral v && areIntegral rest

/-- Whether every number in the values of some fields is an integer. -/
def haveIntegral : List (String × Json) → Bool
  | [] => true
  | (_, v) :: rest => isIntegral v && haveIntegral rest

end

lemma areIntegral_iff {items : List Json} :
    areIntegral items = true ↔ ∀ v ∈ items, v.isIntegral = true := by
  induction items with
  | nil => simp [areIntegral]
  | cons v rest ih => simp [areIntegral, ih]

lemma haveIntegral_iff {fields : List (String × Json)} :
    haveIntegral fields = true ↔ ∀ f ∈ fields, f.2.isIntegral = true := by
  induction fields with
  | nil => simp [haveIntegral]
  | cons f rest ih => simp [haveIntegral, ih]

lemma isIntegral_array {items : List Json} :
    (Json.array items).isIntegral = true ↔ ∀ v ∈ items, v.isIntegral = true := by
  rw [isIntegral, areIntegral_iff]

lemma isIntegral_object {fields : List (String × Json)} :
    (Json.object fields).isIntegral = true ↔ ∀ f ∈ fields, f.2.isIntegral = true := by
  rw [isIntegral, haveIntegral_iff]

/-! ### Storable values -/

/-- Integers are the only numbers, the keys of objects ascend, and collections nest at most so
deep. -/
inductive Storable : Nat → Json → Prop
  | null (depth : Nat) : Storable depth .null
  | bool (depth : Nat) (b : Bool) : Storable depth (.bool b)
  | integer (depth : Nat) (i : Integer) : Storable depth (.number (.integer i))
  | string (depth : Nat) (s : String) : Storable depth (.string s)
  | array {depth : Nat} {items : List Json} (hitems : ∀ v ∈ items, Storable depth v) :
      Storable (depth + 1) (.array items)
  | object {depth : Nat} {fields : List (String × Json)}
      (hkeys : fields.Pairwise fun a b => a.1 < b.1) (hfields : ∀ f ∈ fields, Storable depth f.2) :
      Storable (depth + 1) (.object fields)

/-! ### Objects -/

/-- Fields in ascending order are the fields of their object. -/
lemma ofFields_of_pairwise {fields : List (String × Json)}
    (h : fields.Pairwise fun a b => a.1 < b.1) : ofFields fields = .object fields := by
  have hentries := Properties.ofList_entries ⟨fields, h⟩
  rw [ofFields, hentries, Properties.toJson]

lemma mem_of_mem_ofList {fields : List (String × Json)} {f : String × Json}
    (h : f ∈ (Properties.ofList fields).entries) : f ∈ fields := by
  have hfold : ∀ (rest : List (String × Json)) (m : Properties),
      f ∈ (rest.foldl (fun m f => m.insert f.1 f.2) m).entries → f ∈ m.entries ∨ f ∈ rest := by
    intro rest
    induction rest with
    | nil => exact fun m hm => .inl hm
    | cons e rest ih =>
      intro m hm
      rcases ih _ hm with hm | hrest
      · rcases Properties.mem_setField hm with rfl | hm
        · exact .inr List.mem_cons_self
        · exact .inl hm
      · exact .inr (List.mem_cons_of_mem _ hrest)
  exact (hfold fields .empty h).resolve_left (List.not_mem_nil)

end Depot.Json
