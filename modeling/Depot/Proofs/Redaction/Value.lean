import Depot.Proofs.Configuration.Shape

/-!
# Redaction of values

Redaction puts one fixed text in place of every string that stands at the key `password` of a map
at the key `credentials`, however deep, and leaves all else as it is. Two values with the same
redaction differ in such passwords only.

A redacted value is assignable to the same properties as before (`Kind.assignable_redactField_iff`),
and what it gives as credentials is redacted (`Properties.Gives.redact`).
-/

namespace Depot

/-- What is shown in place of a password. -/
def redacted : String := "<redacted>"

namespace Json

/-- A value with the fixed text in its place, if it is a string and is to be hidden. -/
def hideIf (hidden : Bool) : Json → Json
  | .string s => .string (if hidden then redacted else s)
  | other => other

mutual

/-- Redacts a value; `inside` tells whether it stands at the key `credentials`. -/
def redactIn (inside : Bool) : Json → Json
  | .array items => .array (redactItems items)
  | .object fields => .object (redactFields inside fields)
  | .null => .null
  | .bool b => .bool b
  | .number n => .number n
  | .string s => .string s

/-- Redacts the items of an array. -/
def redactItems : List Json → List Json
  | [] => []
  | v :: rest => redactIn false v :: redactItems rest

/-- Redacts the fields of an object; `inside` tells whether it stands at the key `credentials`. -/
def redactFields (inside : Bool) : List (String × Json) → List (String × Json)
  | [] => []
  | (key, v) :: rest =>
    (key, hideIf (inside && key == "password") (redactIn (key == "credentials") v))
      :: redactFields inside rest

end

/-- A value with every password hidden. -/
def redact (v : Json) : Json :=
  v.redactIn false

/-- What stands at a key, with every password hidden. -/
def redactField (inside : Bool) (key : String) (v : Json) : Json :=
  hideIf (inside && key == "password") (redactIn (key == "credentials") v)

lemma redactFields_eq_map (inside : Bool) (fields : List (String × Json)) :
    redactFields inside fields = fields.map fun e => (e.1, redactField inside e.1 e.2) := by
  induction fields with
  | nil => rfl
  | cons e rest ih => rw [redactFields, ih, List.map_cons, redactField]

/-! ### Fields without passwords of their own -/

lemma hideIf_false (v : Json) : hideIf false v = v := by
  cases v <;> rfl

lemma redactField_of_ne {key : String} (h : key ≠ "credentials") (v : Json) :
    redactField false key v = v.redact := by
  rw [redactField, Bool.false_and, hideIf_false, beq_false_of_ne h, redact]

lemma redactField_string {key : String} (h : key ≠ "credentials") (s : String) :
    redactField false key (.string s) = .string s :=
  redactField_of_ne h (.string s)

lemma redactField_credentials (v : Json) :
    redactField false "credentials" v = v.redactIn true := by
  rw [redactField, Bool.false_and, hideIf_false, beq_self_eq_true]

lemma redactField_object (fields : List (String × Json)) :
    redactField false "credentials" (.object fields) = .object (redactFields true fields) :=
  redactField_credentials (.object fields)

/-- A string that is not hidden, and null, are left as they are. -/
lemma redactField_ofString? {inside : Bool} {key : String}
    (h : (inside && key == "password") = false) (part : Option String) :
    redactField inside key (ofString? part) = ofString? part := by
  rw [redactField, h, hideIf_false]
  cases part <;> rfl

lemma redactField_password (part : Option String) :
    redactField true "password" (ofString? part) = ofString? (part.map fun _ => redacted) := by
  cases part <;> rfl

/-! ### Shapes -/

lemma redactIn_eq_string_iff {inside : Bool} {v : Json} {s : String} :
    v.redactIn inside = .string s ↔ v = .string s := by
  cases v <;> simp [redactIn]

lemma redactItems_eq_strings_iff {items : List Json} {ss : List String} :
    redactItems items = ss.map .string ↔ items = ss.map .string := by
  induction items generalizing ss with
  | nil => rw [redactItems]
  | cons v rest ih =>
    cases ss with
    | nil => simp [redactItems]
    | cons s ss =>
      rw [redactItems, List.map_cons, List.cons.injEq, List.cons.injEq, redactIn_eq_string_iff, ih]

lemma lists_redact_iff {v : Json} {ss : List String} : v.redact.Lists ss ↔ v.Lists ss := by
  rw [← expectStrings_eq_ok_iff, ← expectStrings_eq_ok_iff, redact]
  cases v with
  | array items =>
    rw [redactIn, expectStrings, expectStrings, expectItems_eq_ok_iff, expectItems_eq_ok_iff,
      redactItems_eq_strings_iff]
  | object fields => simp [redactIn, expectStrings]
  | null | bool | number | string => rfl

lemma Lists.redactField {key : String} (hkey : key ≠ "credentials") {v : Json} {ss : List String}
    (h : v.Lists ss) : (redactField false key v).Lists ss := by
  rw [redactField_of_ne hkey]
  exact lists_redact_iff.2 h

/-- A value is null or a string before it is redacted exactly when it is one afterwards. -/
lemma redactField_eq_part_iff {inside : Bool} {key : String} {v : Json} :
    (redactField inside key v = .null ∨ ∃ s, redactField inside key v = .string s) ↔
      (v = .null ∨ ∃ s, v = .string s) := by
  cases v <;> simp [redactField, redactIn, hideIf]

end Json

/-! ### Property maps -/

namespace Properties

/-- A property map with its values changed. -/
def mapValues (g : String → Json → Json) (m : Properties) : Properties where
  entries := m.entries.map fun e => (e.1, g e.1 e.2)
  ordered := List.pairwise_map.2 m.ordered

variable {g : String → Json → Json} {m : Properties} {key : String}

lemma setField_map (key : String) (v : Json) (fields : List (String × Json)) :
    setField key (g key v) (fields.map fun e => (e.1, g e.1 e.2)) =
      (setField key v fields).map fun e => (e.1, g e.1 e.2) := by
  induction fields with
  | nil => rfl
  | cons e rest ih =>
    simp only [List.map_cons, setField, ih]
    split_ifs
    · rfl
    · rfl
    · rfl

lemma insert_mapValues (v : Json) :
    (m.mapValues g).insert key (g key v) = (m.insert key v).mapValues g := by
  simp only [insert, mapValues, setField_map]

/-- Changing the values of fields changes the values of their map. -/
lemma ofList_map (fields : List (String × Json)) :
    ofList (fields.map fun e => (e.1, g e.1 e.2)) = (ofList fields).mapValues g := by
  have hfold : ∀ m : Properties,
      (fields.map fun e => (e.1, g e.1 e.2)).foldl (fun m f => m.insert f.1 f.2) (m.mapValues g) =
        (fields.foldl (fun m f => m.insert f.1 f.2) m).mapValues g := by
    induction fields with
    | nil => exact fun m => rfl
    | cons e rest ih =>
      intro m
      rw [List.map_cons, List.foldl_cons, List.foldl_cons, insert_mapValues, ih]
  exact hfold empty

lemma get?_mapValues : (m.mapValues g).get? key = (m.get? key).map (g key) := by
  cases hv : m.get? key with
  | some v =>
    rw [Option.map_some, get?_eq_some_iff, mapValues, List.mem_map]
    exact ⟨(key, v), get?_eq_some_iff.1 hv, rfl⟩
  | none =>
    rw [Option.map_none, ← contains_eq_false_iff, ← Bool.not_eq_true, contains_iff]
    rintro ⟨w, hw⟩
    rw [get?_eq_some_iff, mapValues, List.mem_map] at hw
    obtain ⟨e, he, heq⟩ := hw
    cases heq
    rw [get?_eq_some_iff.2 he] at hv
    cases hv

@[simp] lemma contains_mapValues : (m.mapValues g).contains key = m.contains key := by
  simp [contains, mapValues, List.any_map, Function.comp_def]

/-- A property map with every password hidden. -/
def redact (m : Properties) : Properties :=
  m.mapValues (Json.redactField false)

lemma ofList_redactFields (inside : Bool) (fields : List (String × Json)) :
    ofList (Json.redactFields inside fields) =
      (ofList fields).mapValues (Json.redactField inside) := by
  rw [Json.redactFields_eq_map, ofList_map]

end Properties

/-! ### Credentials -/

/-- Credentials with the password hidden, if there is one. -/
def Credentials.redact (c : Credentials) : Credentials :=
  { c with password := c.password.map fun _ => redacted }

lemma Properties.Gives.mapValues {m : Properties} {c : Credentials} (h : m.Gives c) :
    (m.mapValues (Json.redactField true)).Gives c.redact where
  keys := by
    intro e he
    obtain ⟨given, hgiven, rfl⟩ := List.mem_map.1 he
    exact h.keys given hgiven
  username := by
    have hu := h.username
    rw [get?_mapValues]
    cases hv : m.get? "username" with
    | none =>
      rw [hv] at hu
      exact hu
    | some v =>
      rw [hv, Option.getD_some] at hu
      rw [hu, Option.map_some, Option.getD_some, Json.redactField_ofString? (by decide)]
      rfl
  password := by
    have hp := h.password
    rw [get?_mapValues]
    cases hv : m.get? "password" with
    | none =>
      rw [hv, Option.getD_none] at hp
      rw [Option.map_none, Option.getD_none, Credentials.redact]
      cases hc : c.password with
      | none => rfl
      | some p =>
        rw [hc] at hp
        cases hp
    | some v =>
      rw [hv, Option.getD_some] at hp
      rw [hp, Option.map_some, Option.getD_some, Json.redactField_password]
      rfl

/-- The credentials of a redacted object are redacted. -/
lemma Properties.Gives.redact {fields : List (String × Json)} {c : Credentials}
    (h : (Properties.ofList fields).Gives c) :
    (Properties.ofList (Json.redactFields true fields)).Gives c.redact := by
  rw [Properties.ofList_redactFields]
  exact h.mapValues

/-! ### What is assignable -/

/-- Of all properties, only the one with that key has credentials for its values. -/
lemma Kind.shape_eq_credentials_iff (k : Kind) :
    ∀ e ∈ k.properties, e.2 = .credentials ↔ e.1 = "credentials" := by
  cases k <;> decide

lemma Shape.admits_redact_iff {shape : Shape} (h : shape ≠ .credentials) {v : Json} :
    shape.Admits v.redact ↔ shape.Admits v := by
  cases shape with
  | string => simp only [Admits, Json.redact, Json.redactIn_eq_string_iff]
  | strings => simp only [Admits, Json.lists_redact_iff]
  | layout => simp only [Admits, Json.redact, Json.redactIn_eq_string_iff]
  | credentials => exact absurd rfl h

lemma Shape.admits_redactIn_iff {v : Json} :
    Shape.credentials.Admits (v.redactIn true) ↔ Shape.credentials.Admits v := by
  cases v with
  | object fields =>
    simp only [Admits, Json.redactIn, Json.object.injEq, exists_eq_left',
      Properties.ofList_redactFields, Properties.mapValues, List.forall_mem_map,
      Json.redactField_eq_part_iff]
  | null | bool | number | string | array => simp [Admits, Json.redactIn]

/-- Hiding passwords makes nothing assignable that was not, and nothing else unassignable. -/
theorem Kind.assignable_redactField_iff {k : Kind} {p : String} {v : Json} :
    k.Assignable p (Json.redactField false p v) ↔ k.Assignable p v := by
  refine exists_congr fun shape => and_congr_right fun hmem => ?_
  have hshape := k.shape_eq_credentials_iff (p, shape) hmem
  by_cases hp : p = "credentials"
  · subst hp
    obtain rfl := hshape.2 rfl
    rw [Json.redactField_credentials, Shape.admits_redactIn_iff]
  · rw [Json.redactField_of_ne hp, Shape.admits_redact_iff fun heq => hp (hshape.1 heq)]

end Depot
