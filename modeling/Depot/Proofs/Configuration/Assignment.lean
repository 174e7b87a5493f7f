import Depot.Proofs.Configuration.Value

/-!
# Assignments

What assigning one property makes of a repository. `Assigned` has a rule for each property of each
kind, and `assign_eq_ok_iff` says that the assignment succeeds by these rules and no others. Whether
it does is up to the kind alone: `Kind.Assignable` reads it off a table of properties and shapes.
-/

namespace Depot

/-! ### Rules of assignment -/

namespace MavenRepository

/-- What assigning a property makes of a Maven repository. -/
inductive Assigned (r : MavenRepository) : String → Json → MavenRepository → Prop where
  | name (s : String) : Assigned r "name" (.string s) { r with name := s }
  | url (s : String) : Assigned r "url" (.string s) { r with url := some s }
  | artifactUrls {v : Json} {ss : List String} (h : v.Lists ss) :
      Assigned r "artifactUrls" v { r with artifactUrls := ss }
  | credentials {fields : List (String × Json)} {c : Credentials}
      (h : (Properties.ofList fields).Gives c) :
      Assigned r "credentials" (.object fields) { r with credentials := c }

lemma assign_eq_ok_iff {r t : MavenRepository} {p : String} {v : Json} :
    r.assign p v = .ok t ↔ r.Assigned p v t := by
  constructor
  · intro h
    unfold assign at h
    split at h
    · obtain ⟨s, rfl, rfl⟩ := Json.bind_expectString_eq_ok_iff.1 h
      exact .name s
    · obtain ⟨s, rfl, rfl⟩ := Json.bind_expectString_eq_ok_iff.1 h
      exact .url s
    · obtain ⟨ss, hss, rfl⟩ := Json.bind_expectStrings_eq_ok_iff.1 h
      exact .artifactUrls hss
    · obtain ⟨fields, c, rfl, hc, rfl⟩ := Json.bind_expectCredentials_eq_ok_iff.1 h
      exact .credentials hc
    · cases h
  · intro h
    cases h with
    | name s => rfl
    | url s => rfl
    | artifactUrls h => exact Json.bind_expectStrings_eq_ok_iff.2 ⟨_, h, rfl⟩
    | credentials h => exact Json.bind_expectCredentials_eq_ok_iff.2 ⟨_, _, rfl, h, rfl⟩

end MavenRepository

namespace IvyRepository

/-- What assigning a property makes of an Ivy repository. -/
inductive Assigned (r : IvyRepository) : String → Json → IvyRepository → Prop where
  | name (s : String) : Assigned r "name" (.string s) { r with name := s }
  | url (s : String) : Assigned r "url" (.string s) { r with url := some s }
  | layout (l : IvyLayout) : Assigned r "layout" (.string l.text) { r with layout := l }
  | artifactPatterns {p : String} {v : Json} {ss : List String}
      (hp : p = "artifactPattern" ∨ p = "artifactPatterns") (h : v.Lists ss) :
      Assigned r p v { r with extraArtifactPatterns := r.extraArtifactPatterns ++ ss }
  | ivyPatterns {p : String} {v : Json} {ss : List String}
      (hp : p = "ivyPattern" ∨ p = "ivyPatterns") (h : v.Lists ss) :
      Assigned r p v { r with extraIvyPatterns := r.extraIvyPatterns ++ ss }
  | credentials {fields : List (String × Json)} {c : Credentials}
      (h : (Properties.ofList fields).Gives c) :
      Assigned r "credentials" (.object fields) { r with credentials := c }

lemma assign_eq_ok_iff {r t : IvyRepository} {p : String} {v : Json} :
    r.assign p v = .ok t ↔ r.Assigned p v t := by
  constructor
  · intro h
    unfold assign at h
    split at h
    · obtain ⟨s, rfl, rfl⟩ := Json.bind_expectString_eq_ok_iff.1 h
      exact .name s
    · obtain ⟨s, rfl, rfl⟩ := Json.bind_expectString_eq_ok_iff.1 h
      exact .url s
    · obtain ⟨s, hs, h⟩ := bind_eq_ok.1 h
      obtain ⟨l, hl, h⟩ := bind_eq_ok.1 h
      cases h
      rw [Json.expectString_eq_ok_iff.1 hs, IvyLayout.parse_eq_ok_iff.1 hl]
      exact .layout l
    · obtain ⟨ss, hss, rfl⟩ := Json.bind_expectStrings_eq_ok_iff.1 h
      exact .artifactPatterns (.inl rfl) hss
    · obtain ⟨ss, hss, rfl⟩ := Json.bind_expectStrings_eq_ok_iff.1 h
      exact .artifactPatterns (.inr rfl) hss
    · obtain ⟨ss, hss, rfl⟩ := Json.bind_expectStrings_eq_ok_iff.1 h
      exact .ivyPatterns (.inl rfl) hss
    · obtain ⟨ss, hss, rfl⟩ := Json.bind_expectStrings_eq_ok_iff.1 h
      exact .ivyPatterns (.inr rfl) hss
    · obtain ⟨fields, c, rfl, hc, rfl⟩ := Json.bind_expectCredentials_eq_ok_iff.1 h
      exact .credentials hc
    · cases h
  · intro h
    cases h with
    | name s => rfl
    | url s => rfl
    | layout l =>
      have hparse : IvyLayout.parse l.text = .ok l := IvyLayout.parse_eq_ok_iff.2 rfl
      exact bind_eq_ok.2 ⟨_, rfl, bind_eq_ok.2 ⟨l, hparse, rfl⟩⟩
    | artifactPatterns hp h =>
      rcases hp with rfl | rfl <;> exact Json.bind_expectStrings_eq_ok_iff.2 ⟨_, h, rfl⟩
    | ivyPatterns hp h =>
      rcases hp with rfl | rfl <;> exact Json.bind_expectStrings_eq_ok_iff.2 ⟨_, h, rfl⟩
    | credentials h => exact Json.bind_expectCredentials_eq_ok_iff.2 ⟨_, _, rfl, h, rfl⟩

end IvyRepository

namespace FlatDirRepository

/-- What assigning a property makes of a flat directory repository. -/
inductive Assigned (r : FlatDirRepository) : String → Json → FlatDirRepository → Prop where
  | name (s : String) : Assigned r "name" (.string s) { r with name := s }
  | dirs {v : Json} {ss : List String} (h : v.Lists ss) :
      Assigned r "dirs" v (r.setDirs (ss.map Path.mk))
  | dir {v : Json} {ss : List String} (h : v.Lists ss) :
      Assigned r "dir" v (r.addDirs (ss.map Path.mk))

lemma assign_eq_ok_iff {r t : FlatDirRepository} {p : String} {v : Json} :
    r.assign p v = .ok t ↔ r.Assigned p v t := by
  constructor
  · intro h
    unfold assign at h
    split at h
    · obtain ⟨s, rfl, rfl⟩ := Json.bind_expectString_eq_ok_iff.1 h
      exact .name s
    · obtain ⟨ss, hss, rfl⟩ := Json.bind_expectStrings_eq_ok_iff.1 h
      exact .dirs hss
    · obtain ⟨ss, hss, rfl⟩ := Json.bind_expectStrings_eq_ok_iff.1 h
      exact .dir hss
    · cases h
  · intro h
    cases h with
    | name s => rfl
    | dirs h => exact Json.bind_expectStrings_eq_ok_iff.2 ⟨_, h, rfl⟩
    | dir h => exact Json.bind_expectStrings_eq_ok_iff.2 ⟨_, h, rfl⟩

/-- Adding directories touches nothing but the directories. -/
lemma addDirs_eq (r : FlatDirRepository) (ps : List Path) :
    r.addDirs ps = { r with dirs := (r.addDirs ps).dirs } := by
  induction ps generalizing r with
  | nil => rfl
  | cons p ps ih => exact ih (r.dir p)

lemma name_addDirs (r : FlatDirRepository) (ps : List Path) : (r.addDirs ps).name = r.name := by
  rw [addDirs_eq]

lemma name_setDirs (r : FlatDirRepository) (ps : List Path) : (r.setDirs ps).name = r.name :=
  name_addDirs _ ps

end FlatDirRepository

/-! ### Repositories of any kind -/

namespace Repository

/-- What a repository of any kind is called in messages. -/
def displayName : Repository → String
  | .maven r => r.displayName
  | .ivy r => r.displayName
  | .flatDir r => r.displayName
  | .custom r => (custom r).describe

/-- Assigns a property of a repository of any kind; a custom one has no properties. -/
def assign (r : Repository) (property : String) (value : Json) : Except Reason Repository :=
  match r with
  | .maven r => (r.assign property value).map .maven
  | .ivy r => (r.assign property value).map .ivy
  | .flatDir r => (r.assign property value).map .flatDir
  | .custom _ => .error .unknownProperty

instance : Configurable Repository := ⟨displayName, assign⟩

/-- What assigning a property makes of a repository. -/
inductive Assigned : Repository → String → Json → Repository → Prop where
  | maven {r t : MavenRepository} {p : String} {v : Json} (h : r.Assigned p v t) :
      Assigned (.maven r) p v (.maven t)
  | ivy {r t : IvyRepository} {p : String} {v : Json} (h : r.Assigned p v t) :
      Assigned (.ivy r) p v (.ivy t)
  | flatDir {r t : FlatDirRepository} {p : String} {v : Json} (h : r.Assigned p v t) :
      Assigned (.flatDir r) p v (.flatDir t)

variable {r t : Repository} {p : String} {v : Json}

theorem assign_eq_ok_iff : r.assign p v = .ok t ↔ r.Assigned p v t := by
  constructor
  · intro h
    cases r with
    | maven r =>
      obtain ⟨t, ht, rfl⟩ := map_eq_ok.1 h
      exact .maven (MavenRepository.assign_eq_ok_iff.1 ht)
    | ivy r =>
      obtain ⟨t, ht, rfl⟩ := map_eq_ok.1 h
      exact .ivy (IvyRepository.assign_eq_ok_iff.1 ht)
    | flatDir r =>
      obtain ⟨t, ht, rfl⟩ := map_eq_ok.1 h
      exact .flatDir (FlatDirRepository.assign_eq_ok_iff.1 ht)
    | custom r => cases h
  · intro h
    cases h with
    | maven h => exact map_eq_ok.2 ⟨_, MavenRepository.assign_eq_ok_iff.2 h, rfl⟩
    | ivy h => exact map_eq_ok.2 ⟨_, IvyRepository.assign_eq_ok_iff.2 h, rfl⟩
    | flatDir h => exact map_eq_ok.2 ⟨_, FlatDirRepository.assign_eq_ok_iff.2 h, rfl⟩

lemma Assigned.kind_eq (h : r.Assigned p v t) : t.kind = r.kind := by
  cases h <;> rfl

/-- The name is what is assigned to it, and is untouched by any other property. -/
lemma Assigned.name_eq (h : r.Assigned p v t) :
    (p = "name" → v = .string t.name) ∧ (p ≠ "name" → t.name = r.name) := by
  cases h with
  | maven h => cases h <;> simp [name]
  | ivy h =>
    cases h with
    | artifactPatterns hp h => rcases hp with rfl | rfl <;> simp [name]
    | ivyPatterns hp h => rcases hp with rfl | rfl <;> simp [name]
    | _ => simp [name]
  | flatDir h =>
    cases h with
    | name s => simp [name]
    | dirs h => simp [name, FlatDirRepository.name_setDirs]
    | dir h => simp [name, FlatDirRepository.name_addDirs]

/-- The credentials are what is assigned to them, and are untouched by any other property. -/
lemma Assigned.credentials_eq (h : r.Assigned p v t) :
    (p = "credentials" → ∃ fields c, v = .object fields ∧ (Properties.ofList fields).Gives c ∧
      t.credentials? = some c) ∧ (p ≠ "credentials" → t.credentials? = r.credentials?) := by
  cases h with
  | maven h =>
    cases h with
    | credentials h => exact ⟨fun _ => ⟨_, _, rfl, h, rfl⟩, fun hne => absurd rfl hne⟩
    | _ => simp [credentials?]
  | ivy h =>
    cases h with
    | credentials h => exact ⟨fun _ => ⟨_, _, rfl, h, rfl⟩, fun hne => absurd rfl hne⟩
    | artifactPatterns hp h => rcases hp with rfl | rfl <;> simp [credentials?]
    | ivyPatterns hp h => rcases hp with rfl | rfl <;> simp [credentials?]
    | _ => simp [credentials?]
  | flatDir h => cases h <;> simp [credentials?]

end Repository

end Depot
