import Depot.Variant

/-!
# Kinds of repositories

The closed set of kinds, and their spelling.
-/

namespace Depot

/-- The kind of a repository. -/
inductive Kind where
  | maven
  | ivy
  | flatDir
  | custom
  deriving DecidableEq, Repr

namespace Kind

/-- All kinds, in their order. -/
def all : List Kind := [.maven, .ivy, .flatDir, .custom]

/-- The spelling of a kind. -/
def text : Kind → String
  | .maven => "maven"
  | .ivy => "ivy"
  | .flatDir => "flatDir"
  | .custom => "custom"

/-- The kind with a spelling. -/
def ofText? (s : String) : Option Kind :=
  all.find? (·.text == s)

/-- The kind with the spelling of a variant, or the refusal of the spelling. -/
def ofVariant (s : String) : Except UnknownVariant Kind :=
  match ofText? s with
  | some k => .ok k
  | none => .error ⟨s, all.map text⟩

@[simp] theorem ofText?_text (k : Kind) : ofText? k.text = some k := by
  cases k <;> decide

end Kind

end Depot
