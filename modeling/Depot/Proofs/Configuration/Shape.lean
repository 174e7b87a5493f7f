import Depot.Proofs.Configuration.Assignment

/-!
# Shapes of properties

Each kind of repository has a table of its properties, with the shape that their values have.
`exists_assigned_iff`: a property can be assigned exactly when the table has it with a shape that
admits the value, whatever the repository holds already.
-/

namespace Depot

/-- The shape of a property's values. -/
inductive Shape where
  | string
  | strings
  | layout
  | credentials
  deriving DecidableEq, Repr

/-- The values of a shape: a string; a string or an array of strings; the name of a layout; an
object with a user name and a password, each a string or null, either of which may be missing. -/
def Shape.Admits : Shape → Json → Prop
  | .string, v => ∃ s, v = .string s
  | .strings, v => ∃ ss, v.Lists ss
  | .layout, v => ∃ l : IvyLayout, v = .string l.text
  | .credentials, v => ∃ fields, v = .object fields ∧
      ∀ e ∈ (Properties.ofList fields).entries,
        (e.1 = "username" ∨ e.1 = "password") ∧ (e.2 = .null ∨ ∃ s, e.2 = .string s)

/-- The properties of a kind, each with its shape. -/
def Kind.properties : Kind → List (String × Shape)
  | .maven => [("name", .string), ("url", .string), ("artifactUrls", .strings),
      ("credentials", .credentials)]
  | .ivy => [("name", .string), ("url", .string), ("layout", .layout),
      ("artifactPattern", .strings), ("artifactPatterns", .strings), ("ivyPattern", .strings),
      ("ivyPatterns", .strings), ("credentials", .credentials)]
  | .flatDir => [("name", .string), ("dir", .strings), ("dirs", .strings)]
  | .custom => []

/-- A property of a kind with a value that its shape admits. -/
def Kind.Assignable (k : Kind) (property : String) (value : Json) : Prop :=
  ∃ shape, (property, shape) ∈ k.properties ∧ shape.Admits value

/-! ### Credentials -/

lemma Json.eq_ofString?_iff {v : Json} :
    (∃ part, v = Json.ofString? part) ↔ v = .null ∨ ∃ s, v = .string s := by
  constructor
  · rintro ⟨(_ | s), rfl⟩
    · exact .inl rfl
    · exact .inr ⟨s, rfl⟩
  · rintro (rfl | ⟨s, rfl⟩)
    · exact ⟨none, rfl⟩
    · exact ⟨some s, rfl⟩

/-- A part is given if what stands at its key is a string or null. -/
lemma Properties.exists_part {m : Properties}
    (h : ∀ e ∈ m.entries, e.2 = .null ∨ ∃ s, e.2 = .string s) (key : String) :
    ∃ part, (m.get? key).getD .null = Json.ofString? part := by
  cases hv : m.get? key with
  | none => exact ⟨none, rfl⟩
  | some v => exact Json.eq_ofString?_iff.2 (h (key, v) (get?_eq_some_iff.1 hv))

lemma Properties.exists_gives_iff {m : Properties} : (∃ c, m.Gives c) ↔ ∀ e ∈ m.entries,
    (e.1 = "username" ∨ e.1 = "password") ∧ (e.2 = .null ∨ ∃ s, e.2 = .string s) := by
  constructor
  · rintro ⟨c, hkeys, hu, hp⟩ ⟨key, v⟩ he
    refine ⟨hkeys _ he, ?_⟩
    have hget := get?_eq_some_iff.2 he
    rcases hkeys _ he with rfl | rfl
    · rw [hget] at hu
      exact Json.eq_ofString?_iff.1 ⟨_, hu⟩
    · rw [hget] at hp
      exact Json.eq_ofString?_iff.1 ⟨_, hp⟩
  · intro h
    have hparts := Properties.exists_part fun e he => (h e he).2
    obtain ⟨u, hu⟩ := hparts "username"
    obtain ⟨p, hp⟩ := hparts "password"
    exact ⟨⟨u, p⟩, fun e he => (h e he).1, hu, hp⟩

lemma Shape.admits_credentials_iff {v : Json} : Shape.credentials.Admits v ↔
    ∃ fields c, v = .object fields ∧ (Properties.ofList fields).Gives c := by
  simp only [Admits, ← Properties.exists_gives_iff, exists_and_left]

/-! ### What can be assigned -/

variable {p : String} {v : Json}

lemma MavenRepository.exists_assigned_iff (r : MavenRepository) :
    (∃ t, r.Assigned p v t) ↔ Kind.maven.Assignable p v := by
  constructor
  · rintro ⟨t, h⟩
    cases h with
    | name s => exact ⟨.string, by decide, s, rfl⟩
    | url s => exact ⟨.string, by decide, s, rfl⟩
    | artifactUrls h => exact ⟨.strings, by decide, _, h⟩
    | credentials h =>
      exact ⟨.credentials, by decide, Shape.admits_credentials_iff.2 ⟨_, _, rfl, h⟩⟩
  · rintro ⟨shape, hmem, hv⟩
    simp only [Kind.properties, List.mem_cons, Prod.mk.injEq, List.not_mem_nil, or_false] at hmem
    rcases hmem with ⟨rfl, rfl⟩ | ⟨rfl, rfl⟩ | ⟨rfl, rfl⟩ | ⟨rfl, rfl⟩
    · obtain ⟨s, rfl⟩ := hv
      exact ⟨_, .name s⟩
    · obtain ⟨s, rfl⟩ := hv
      exact ⟨_, .url s⟩
    · obtain ⟨ss, h⟩ := hv
      exact ⟨_, .artifactUrls h⟩
    · obtain ⟨fields, c, rfl, h⟩ := Shape.admits_credentials_iff.1 hv
      exact ⟨_, .credentials h⟩

lemma IvyRepository.exists_assigned_iff (r : IvyRepository) :
    (∃ t, r.Assigned p v t) ↔ Kind.ivy.Assignable p v := by
  constructor
  · rintro ⟨t, h⟩
    cases h with
    | name s => exact ⟨.string, by decide, s, rfl⟩
    | url s => exact ⟨.string, by decide, s, rfl⟩
    | layout l => exact ⟨.layout, by decide, l, rfl⟩
    | artifactPatterns hp h => rcases hp with rfl | rfl <;> exact ⟨.strings, by decide, _, h⟩
    | ivyPatterns hp h => rcases hp with rfl | rfl <;> exact ⟨.strings, by decide, _, h⟩
    | credentials h =>
      exact ⟨.credentials, by decide, Shape.admits_credentials_iff.2 ⟨_, _, rfl, h⟩⟩
  · rintro ⟨shape, hmem, hv⟩
    simp only [Kind.properties, List.mem_cons, Prod.mk.injEq, List.not_mem_nil, or_false] at hmem
    rcases hmem with ⟨rfl, rfl⟩ | ⟨rfl, rfl⟩ | ⟨rfl, rfl⟩ | ⟨rfl, rfl⟩ | ⟨rfl, rfl⟩ | ⟨rfl, rfl⟩ |
      ⟨rfl, rfl⟩ | ⟨rfl, rfl⟩
    · obtain ⟨s, rfl⟩ := hv
      exact ⟨_, .name s⟩
    · obtain ⟨s, rfl⟩ := hv
      exact ⟨_, .url s⟩
    · obtain ⟨l, rfl⟩ := hv
      exact ⟨_, .layout l⟩
    · obtain ⟨ss, h⟩ := hv
      exact ⟨_, .artifactPatterns (.inl rfl) h⟩
    · obtain ⟨ss, h⟩ := hv
      exact ⟨_, .artifactPatterns (.inr rfl) h⟩
    · obtain ⟨ss, h⟩ := hv
      exact ⟨_, .ivyPatterns (.inl rfl) h⟩
    · obtain ⟨ss, h⟩ := hv
      exact ⟨_, .ivyPatterns (.inr rfl) h⟩
    · obtain ⟨fields, c, rfl, h⟩ := Shape.admits_credentials_iff.1 hv
      exact ⟨_, .credentials h⟩

lemma FlatDirRepository.exists_assigned_iff (r : FlatDirRepository) :
    (∃ t, r.Assigned p v t) ↔ Kind.flatDir.Assignable p v := by
  constructor
  · rintro ⟨t, h⟩
    cases h with
    | name s => exact ⟨.string, by decide, s, rfl⟩
    | dirs h => exact ⟨.strings, by decide, _, h⟩
    | dir h => exact ⟨.strings, by decide, _, h⟩
  · rintro ⟨shape, hmem, hv⟩
    simp only [Kind.properties, List.mem_cons, Prod.mk.injEq, List.not_mem_nil, or_false] at hmem
    rcases hmem with ⟨rfl, rfl⟩ | ⟨rfl, rfl⟩ | ⟨rfl, rfl⟩
    · obtain ⟨s, rfl⟩ := hv
      exact ⟨_, .name s⟩
    · obtain ⟨ss, h⟩ := hv
      exact ⟨_, .dir h⟩
    · obtain ⟨ss, h⟩ := hv
      exact ⟨_, .dirs h⟩

/-- Whether a property can be assigned is up to the kind of the repository alone. -/
theorem Repository.exists_assigned_iff (r : Repository) :
    (∃ t, r.Assigned p v t) ↔ r.kind.Assignable p v := by
  cases r with
  | maven r =>
    rw [show (maven r).kind = .maven from rfl, ← r.exists_assigned_iff]
    constructor
    · rintro ⟨_, h⟩
      cases h with
      | maven h => exact ⟨_, h⟩
    · rintro ⟨_, h⟩
      exact ⟨_, .maven h⟩
  | ivy r =>
    rw [show (ivy r).kind = .ivy from rfl, ← r.exists_assigned_iff]
    constructor
    · rintro ⟨_, h⟩
      cases h with
      | ivy h => exact ⟨_, h⟩
    · rintro ⟨_, h⟩
      exact ⟨_, .ivy h⟩
  | flatDir r =>
    rw [show (flatDir r).kind = .flatDir from rfl, ← r.exists_assigned_iff]
    constructor
    · rintro ⟨_, h⟩
      cases h with
      | flatDir h => exact ⟨_, h⟩
    · rintro ⟨_, h⟩
      exact ⟨_, .flatDir h⟩
  | custom r =>
    constructor
    · rintro ⟨_, h⟩
      cases h
    · rintro ⟨shape, hmem, -⟩
      exact absurd hmem (List.not_mem_nil)

end Depot
