import Depot.Repository.Basic

/-!
# Configuration by properties

A property map is applied to a repository entry by entry, in the order of its keys. An assignment
either happens as a whole or fails and changes nothing; the first one that fails ends the
configuration, and the assignments before it stay.
-/

namespace Depot

/-! ### Shapes of values -/

/-- The string that a value is. -/
def Json.expectString : Json → Except Reason String
  | .string s => .ok s
  | other => .error (.notAString other)

/-- The strings that the items of an array are. -/
def Json.expectItems : List Json → Except Reason (List String)
  | [] => .ok []
  | v :: rest => do return (← v.expectString) :: (← expectItems rest)

/-- The strings that a value lists; a string by itself is a list of one. -/
def Json.expectStrings : Json → Except Reason (List String)
  | .string s => .ok [s]
  | .array items => expectItems items
  | other => .error (.notStrings other)

/-- The credentials that an object holds. -/
def Json.expectCredentials : Json → Except Reason Credentials
  | .object fields => (Credentials.ofJson (.object fields)).mapError .credentials
  | other => .error (.notAMap other)

/-! ### Assignments -/

/-- What has properties that can be assigned by name. -/
class Configurable (R : Type) where
  displayName : R → String
  assign : R → String → Json → Except Reason R

/-- Assigns a property of a Maven repository. -/
def MavenRepository.assign (r : MavenRepository) (property : String) (value : Json) :
    Except Reason MavenRepository :=
  match property with
  | "name" => do return { r with name := ← value.expectString }
  | "url" => do return { r with url := some (← value.expectString) }
  | "artifactUrls" => do return { r with artifactUrls := ← value.expectStrings }
  | "credentials" => do return { r with credentials := ← value.expectCredentials }
  | _ => .error .unknownProperty

/-- Assigns a property of an Ivy repository. -/
def IvyRepository.assign (r : IvyRepository) (property : String) (value : Json) :
    Except Reason IvyRepository :=
  match property with
  | "name" => do return { r with name := ← value.expectString }
  | "url" => do return { r with url := some (← value.expectString) }
  | "layout" => do return { r with layout := ← IvyLayout.parse (← value.expectString) }
  | "artifactPattern" | "artifactPatterns" => do
    return { r with extraArtifactPatterns := r.extraArtifactPatterns ++ (← value.expectStrings) }
  | "ivyPattern" | "ivyPatterns" => do
    return { r with extraIvyPatterns := r.extraIvyPatterns ++ (← value.expectStrings) }
  | "credentials" => do return { r with credentials := ← value.expectCredentials }
  | _ => .error .unknownProperty

/-- Assigns a property of a flat directory repository. -/
def FlatDirRepository.assign (r : FlatDirRepository) (property : String) (value : Json) :
    Except Reason FlatDirRepository :=
  match property with
  | "name" => do return { r with name := ← value.expectString }
  | "dirs" => do return r.setDirs ((← value.expectStrings).map Path.mk)
  | "dir" => do return r.addDirs ((← value.expectStrings).map Path.mk)
  | _ => .error .unknownProperty

instance : Configurable MavenRepository := ⟨MavenRepository.displayName, MavenRepository.assign⟩

instance : Configurable IvyRepository := ⟨IvyRepository.displayName, IvyRepository.assign⟩

instance : Configurable FlatDirRepository :=
  ⟨FlatDirRepository.displayName, FlatDirRepository.assign⟩

/-- Assigns a property; a failure names the property and the repository. -/
def setProperty {R : Type} [Configurable R] (r : R) (property : String) (value : Json) :
    Except Failure R :=
  (Configurable.assign r property value).mapError
    (.propertyAssignment property (Configurable.displayName r))

/-! ### Property maps -/

/-- Applies entries in their order up to the first that fails. -/
def configureEntries {R : Type} [Configurable R] (r : R) :
    List (String × Json) → R × Option Failure
  | [] => (r, none)
  | (property, value) :: rest =>
    match setProperty r property value with
    | .ok r => configureEntries r rest
    | .error e => (r, some e)

/-- The repository as far as a property map could be applied, and what ended it early. -/
def configure {R : Type} [Configurable R] (r : R) (m : Properties) : R × Option Failure :=
  configureEntries r m.entries

/-- The repository with a whole property map applied. -/
def configured {R : Type} [Configurable R] (r : R) (m : Properties) : Except Failure R :=
  match configure r m with
  | (r, none) => .ok r
  | (_, some e) => .error e

@[simp] theorem configure_empty {R : Type} [Configurable R] (r : R) :
    configure r .empty = (r, none) := rfl

@[simp] theorem configured_empty {R : Type} [Configurable R] (r : R) :
    configured r .empty = .ok r := rfl

end Depot
