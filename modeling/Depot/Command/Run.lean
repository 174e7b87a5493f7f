import Depot.Command.Arguments
import Depot.Command.Fault
import Depot.Command.Help
import Depot.Json.Text
import Depot.Listing
import Depot.RepositoriesFile.Load

/-!
# Running a command

A run takes the arguments and the host and ends with an exit code, the text for the output and the
text for the errors. A command prints all of its output or none: a run that fails or panics leaves
the output empty.
-/

namespace Depot.Command

/-- Why a run comes to an early end. -/
inductive Halt where
  | failure (e : Failure)
  | panic (p : Panic)
  deriving DecidableEq

/-! ### The repositories file of a run -/

/-- The path of the repositories file: the one that is named, or the default one. -/
def repositoriesPath (h : Host) (file : Option Path) : Except Failure Path :=
  match file with
  | some p => .ok p
  | none => RepositoriesFile.defaultPath h

/-- The directory that a path names before its last component. -/
def parentOf (p : Path) : Path :=
  match p.parent? with
  | some dir => if dir.text.isEmpty then ⟨"."⟩ else dir
  | none => ⟨"."⟩

/-- The absolute directory that holds a file. For a relative path it is below the working directory,
which must have a path then. -/
def directoryOf (h : Host) (p : Path) : Except Failure Path :=
  if (parentOf p).isAbsolute then .ok (parentOf p)
  else (h.workingDirectory.path.map fun wd => wd.join (parentOf p)).mapError .io

/-- The repositories file and the directory that holds it. A file that is named has to be there;
without the default file everything is as with an empty one. -/
def loadFile (h : Host) (file : Option Path) : Except Failure (RepositoriesFile × Path) := do
  let p ← repositoriesPath h file
  let f ← if file.isSome || h.holds p then RepositoriesFile.loadFrom h p else pure {}
  let directory ← directoryOf h p
  return (f, directory)

/-- The repositories file and the factory for it. -/
def loadFactory (h : Host) (file : Option Path) : Except Halt (RepositoriesFile × Factory) := do
  let (f, directory) ← (loadFile h file).mapError .failure
  let factory ← (f.factory h directory).mapError .panic
  return (f, factory)

/-! ### Commands -/

/-- What a run without repositories prints. -/
def noRepositories : String :=
  "No repositories declared\n  hint: add entries under repositories in the repositories file"

/-- The listing of some repositories. -/
def listing (asJson : Bool) (rows : List Row) : String :=
  if asJson then (Json.array (rows.map Row.toJson)).pretty
  else if rows.isEmpty then noRepositories
  else table rows

/-- The rows of the repositories that a file declares. -/
def resolve (h : Host) (file : Option Path) : Except Halt (List Row) := do
  let (f, factory) ← loadFactory h file
  match f.declareAll factory {} with
  | (.ok _, s) => return s.declared.map Row.ofRepository
  | (.error e, _) => throw (.failure e)

/-- The URL of the local repository. -/
def localUrl (h : Host) (file : Option Path) : Except Halt (Option String) := do
  let (_, factory) ← loadFactory h file
  let r ← (factory.mavenLocal 0).1.mapError .failure
  return r.url

/-- The paths that a run on some arguments may look at. -/
def paths (h : Host) (args : List String) : List Path :=
  let file? :=
    match Request.ofArguments args with
    | .ok (.resolve o) | .ok (.localRepository o) => some o.file
    | _ => none
  match file? with
  | none => []
  | some file =>
    let chosen :=
      match repositoriesPath h file with
      | .ok p => [p]
      | .error _ => []
    let settings :=
      match Locator.ofHost h with
      | .ok l => l.settingsFiles
      | .error _ => []
    chosen ++ settings

/-! ### Runs -/

/-- How a run ends. -/
structure Outcome where
  exitCode : Nat := 0
  output : String := ""
  errors : String := ""
  deriving DecidableEq, Repr

/-- The exit code for arguments that cannot be understood. -/
def usageExitCode : Nat := 2

/-- The exit code of a run that panics. -/
def panicExitCode : Nat := 101

/-- A run that ends with a failure. -/
def Outcome.ofFailure (e : Failure) : Outcome :=
  let fault := Fault.ofFailure e
  let help :=
    match fault.help? with
    | some help => s!"  help: {help}\n"
    | none => ""
  { exitCode := fault.exitCode, errors := s!"Error: {fault.message}\n{help}" }

/-- A run that panics. -/
def Outcome.ofPanic (p : Panic) : Outcome :=
  { exitCode := panicExitCode, errors := s!"Error: {p.message}\n" }

/-- A run that comes to an early end. -/
def Outcome.ofHalt : Halt → Outcome
  | .failure e => .ofFailure e
  | .panic p => .ofPanic p

/-- A run that answers a request. -/
def answer (h : Host) : Request → Except Halt String
  | .help t => .ok (Help.page t)
  | .version t => .ok t.versionLine
  | .resolve o => (resolve h o.file).map fun rows => listing o.json rows ++ "\n"
  | .localRepository o => (localUrl h o.file).map fun url => (url.map (· ++ "\n")).getD ""

/-- Runs the program. -/
def run (h : Host) (args : List String) : Outcome :=
  match Request.ofArguments args with
  | .error e => { exitCode := usageExitCode, errors := s!"error: {e.message}\n" }
  | .ok r =>
    match answer h r with
    | .ok output => { output }
    | .error e => .ofHalt e

end Depot.Command
