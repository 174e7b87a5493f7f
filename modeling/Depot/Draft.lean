import Depot.Repository.Basic

/-!
# Drafts

What a user may write for a repository: a plain value, a resolver or a finished repository. A draft
is classified into a descriptor; of the plain values only strings and objects describe one.
-/

namespace Depot

/-- What was written for a repository. -/
inductive Draft where
  | value (v : Json)
  | resolver (name : String)
  | repository (r : Repository)
  deriving DecidableEq

/-- What a draft asks for. -/
inductive Descriptor where
  | existing (r : Repository)
  | url (url : String)
  | properties (m : Properties)
  | resolver (name : String)
  deriving DecidableEq

namespace Draft

/-- What a draft asks for, unless it has a shape that describes no repository. -/
def classify : Draft → Except Failure Descriptor
  | .repository r => .ok (.existing r)
  | .resolver name => .ok (.resolver name)
  | .value (.string url) => .ok (.url url)
  | .value (.object fields) => .ok (.properties (Properties.ofList fields))
  | .value other => .error (.unsupportedDescriptor other.compact)

/-- The text of a draft. -/
def text : Draft → String
  | .repository r => r.describe
  | .resolver name => s!"resolver '{name}'"
  | .value (.string s) => s
  | .value other => other.compact

/-- Whether a draft settles the name of its repository. -/
def namesExplicitly : Draft → Bool
  | .repository r => !r.hasDefaultName
  | .resolver _ => true
  | .value (.object fields) => (Properties.ofList fields).contains "name"
  | .value _ => false

end Draft

end Depot
