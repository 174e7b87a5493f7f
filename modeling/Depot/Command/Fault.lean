import Depot.Failure

/-!
# Faults of the command line

Every failure is reported as one of four faults, each with an exit code of its own. What failed is
worded as it was; some faults come with a hint.
-/

namespace Depot.Command

/-- What the command line reports. -/
inductive Fault where
  | config (message : String) (help : Option String)
  | repository (message : String) (help : Option String)
  | io (message : String)
  | internal (message : String)
  deriving DecidableEq, Repr

namespace Fault

/-- The wording of a fault. -/
def message : Fault → String
  | .config message _ => message
  | .repository message _ => message
  | .io message => s!"IO error: {message}"
  | .internal message => s!"Internal error: {message}"

/-- The hint that comes with a fault. -/
def help? : Fault → Option String
  | .config _ help => help
  | .repository _ help => help
  | .io _ | .internal _ => none

/-- The code that a run ends with. -/
def exitCode : Fault → Nat
  | .internal _ => 1
  | .config .. => 2
  | .repository .. => 3
  | .io _ => 5

/-- What to write for a repository. -/
def descriptorHelp : String :=
  "Use a URL string, a map of repository properties, or one of "
    ++ "mavenCentral, mavenLocal, maven, ivy, flatDir"

/-- How to set the location of the local repository. -/
def localHelp : String :=
  "Set localRepository in the repositories file or the MAVEN_REPO_LOCAL environment variable"

/-- The fault that a failure is reported as. -/
def ofFailure (f : Failure) : Fault :=
  match f with
  | .unsupportedDescriptor _ => .config f.message (some descriptorHelp)
  | .propertyAssignment .. | .duplicateRepository _ | .invalidConfig _ | .serialization _ =>
    .config f.message none
  | .localRepositoryUnavailable _ => .repository f.message (some localHelp)
  | .io e => .io e.message

/-- A failure and the fault that it is reported as read the same. -/
@[simp] theorem message_ofFailure (f : Failure) : (ofFailure f).message = f.message := by
  cases f <;> rfl

end Fault

end Depot.Command
