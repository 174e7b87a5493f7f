import Depot.Decimal.Binary64

/-!
# JSON values

A value is null, a boolean, a number, a string, an array or an object. A number is an integer of 64
bits, signed or unsigned, or a binary floating point number. The fields of an object stand in the
order in which they are written out.

`Properties` is an object seen as a map: its keys are pairwise distinct and ascend by code point,
which is also the order of their octets in UTF-8. `Properties.ofList` sorts a list of fields, and of
two fields with the same key the later one wins.
-/

namespace Depot

open Decimal (Binary64)

/-- An integer that 64 bits can hold, with or without a sign. -/
structure Json.Integer where
  value : Int
  inRange : -0x8000000000000000 ≤ value ∧ value < 0x10000000000000000
  deriving DecidableEq

/-- The integer, when 64 bits can hold it. -/
def Json.Integer.ofInt? (value : Int) : Option Json.Integer :=
  if h : -0x8000000000000000 ≤ value ∧ value < 0x10000000000000000 then some ⟨value, h⟩ else none

/-- A number of a JSON document. -/
inductive Json.Number where
  | integer (i : Json.Integer)
  | double (d : Binary64)
  deriving DecidableEq

/-- A JSON document. -/
inductive Json where
  | null
  | bool (b : Bool)
  | number (n : Json.Number)
  | string (s : String)
  | array (items : List Json)
  | object (fields : List (String × Json))
  deriving Inhabited

namespace Json

/-! ### Equality -/

mutual

/-- Decides equality of two values. -/
def decEq : (a b : Json) → Decidable (a = b)
  | .null, .null => isTrue rfl
  | .bool a, .bool b => if h : a = b then isTrue (h ▸ rfl) else isFalse (by simp [h])
  | .number a, .number b => if h : a = b then isTrue (h ▸ rfl) else isFalse (by simp [h])
  | .string a, .string b => if h : a = b then isTrue (h ▸ rfl) else isFalse (by simp [h])
  | .array a, .array b =>
    match decEqItems a b with
    | isTrue h => isTrue (h ▸ rfl)
    | isFalse h => isFalse (by simp [h])
  | .object a, .object b =>
    match decEqFields a b with
    | isTrue h => isTrue (h ▸ rfl)
    | isFalse h => isFalse (by simp [h])
  | .null, .bool _ | .null, .number _ | .null, .string _ | .null, .array _ | .null, .object _
  | .bool _, .null | .bool _, .number _ | .bool _, .string _ | .bool _, .array _
  | .bool _, .object _ | .number _, .null | .number _, .bool _ | .number _, .string _
  | .number _, .array _ | .number _, .object _ | .string _, .null | .string _, .bool _
  | .string _, .number _ | .string _, .array _ | .string _, .object _ | .array _, .null
  | .array _, .bool _ | .array _, .number _ | .array _, .string _ | .array _, .object _
  | .object _, .null | .object _, .bool _ | .object _, .number _ | .object _, .string _
  | .object _, .array _ => isFalse nofun

/-- Decides equality of two arrays. -/
def decEqItems : (a b : List Json) → Decidable (a = b)
  | [], [] => isTrue rfl
  | [], _ :: _ | _ :: _, [] => isFalse nofun
  | x :: xs, y :: ys =>
    match decEq x y, decEqItems xs ys with
    | isTrue h, isTrue hs => isTrue (by rw [h, hs])
    | isFalse h, _ => isFalse (by simp [h])
    | _, isFalse hs => isFalse (by simp [hs])

/-- Decides equality of two lists of fields. -/
def decEqFields : (a b : List (String × Json)) → Decidable (a = b)
  | [], [] => isTrue rfl
  | [], _ :: _ | _ :: _, [] => isFalse nofun
  | (j, x) :: xs, (k, y) :: ys =>
    match decEq x y, decEqFields xs ys with
    | isTrue h, isTrue hs =>
      if hk : j = k then isTrue (by rw [h, hs, hk]) else isFalse (by simp [hk])
    | isFalse h, _ => isFalse (by simp [h])
    | _, isFalse hs => isFalse (by simp [hs])

end

instance : DecidableEq Json := decEq

/-! ### Building numbers -/

/-- An integer, as a floating point number where 64 bits cannot hold it. -/
def ofInt (value : Int) : Json :=
  match Integer.ofInt? value with
  | some i => .number (.integer i)
  | none => .number (.double (Binary64.ofDecimal (value < 0) value.natAbs 0))

/-- A natural number. -/
def ofNat (n : Nat) : Json :=
  ofInt n

/-- A floating point number; one that is not finite has no spelling and becomes null. -/
def ofBinary64 (d : Binary64) : Json :=
  if d.isFinite then .number (.double d) else .null

/-- A string, or null in its absence. -/
def ofString? : Option String → Json
  | some s => .string s
  | none => .null

/-- An array of strings. -/
def ofStrings (ss : List String) : Json :=
  .array (ss.map .string)

end Json

/-! ### Properties -/

/-- An object seen as a map: the keys ascend strictly. -/
structure Properties where
  entries : List (String × Json)
  ordered : entries.Pairwise fun a b => a.1 < b.1

namespace Properties

instance : DecidableEq Properties := fun a b =>
  if h : a.entries = b.entries then isTrue (by cases a; cases b; simp_all)
  else isFalse fun e => h (e ▸ rfl)

/-- No entries. -/
def empty : Properties := ⟨[], .nil⟩

/-- A list of fields with one field set, in its place by the order of the keys. -/
def setField (key : String) (value : Json) : List (String × Json) → List (String × Json)
  | [] => [(key, value)]
  | (k, v) :: rest =>
    if key < k then (key, value) :: (k, v) :: rest
    else if key = k then (key, value) :: rest
    else (k, v) :: setField key value rest

theorem mem_setField {key : String} {value : Json} {fields : List (String × Json)}
    {e : String × Json} (h : e ∈ setField key value fields) : e = (key, value) ∨ e ∈ fields := by
  induction fields with
  | nil => simpa [setField] using h
  | cons f rest ih =>
    obtain ⟨k, v⟩ := f
    simp only [setField] at h
    split at h
    · simpa using h
    · split at h
      · rcases List.mem_cons.1 h with h | h
        · exact .inl h
        · exact .inr (List.mem_cons_of_mem _ h)
      · rcases List.mem_cons.1 h with h | h
        · exact .inr (h ▸ List.mem_cons_self)
        · exact (ih h).imp_right (List.mem_cons_of_mem _)

/-- Setting a field keeps the keys in strictly ascending order. -/
theorem pairwise_setField (key : String) (value : Json) {fields : List (String × Json)}
    (h : fields.Pairwise fun a b => a.1 < b.1) :
    (setField key value fields).Pairwise fun a b => a.1 < b.1 := by
  induction fields with
  | nil => simp [setField]
  | cons f rest ih =>
    obtain ⟨k, v⟩ := f
    obtain ⟨hk, hrest⟩ := List.pairwise_cons.1 h
    simp only [setField]
    split
    · next hlt =>
      refine List.pairwise_cons.2 ⟨fun e he => ?_, h⟩
      rcases List.mem_cons.1 he with rfl | he
      · exact hlt
      · exact String.lt_trans hlt (hk e he)
    · next hlt =>
      split
      · next heq => exact List.pairwise_cons.2 ⟨fun e he => heq ▸ hk e he, hrest⟩
      · next hne =>
        refine List.pairwise_cons.2 ⟨fun e he => ?_, ih hrest⟩
        rcases mem_setField he with rfl | he
        · exact Decidable.byContradiction fun hn => hne (String.le_antisymm hn hlt)
        · exact hk e he

/-- The map with one entry set. -/
def insert (m : Properties) (key : String) (value : Json) : Properties :=
  ⟨setField key value m.entries, pairwise_setField key value m.ordered⟩

/-- The map of a list of fields; of two fields with the same key the later one wins. -/
def ofList (fields : List (String × Json)) : Properties :=
  fields.foldl (fun m f => m.insert f.1 f.2) empty

/-- The value of a key. -/
def get? (m : Properties) (key : String) : Option Json :=
  m.entries.lookup key

/-- Whether a key is present. -/
def contains (m : Properties) (key : String) : Bool :=
  m.entries.any (·.1 == key)

/-- The map as a value. -/
def toJson (m : Properties) : Json :=
  .object m.entries

end Properties

/-- The value with the fields of every object in ascending order of their keys. -/
def Json.ofFields (fields : List (String × Json)) : Json :=
  (Properties.ofList fields).toJson

end Depot
