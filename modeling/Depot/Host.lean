import Depot.FileSystem

/-!
# Hosts

All that a run can learn from outside: the file system, the working directory, the environment
variables and the home directory of the account.

The name and the value of a variable are octets, which need not be Unicode. Taking all variables as
texts panics at the first one that is not (`Host.readTexts`); a single one can be asked for all the
same (`Host.valueOf?`).
-/

namespace Depot

/-- An environment variable. Where it is not Unicode, its texts have replacement characters for what
cannot be read. -/
structure Variable where
  name : String
  value : String
  isUnicode : Bool := true
  deriving DecidableEq, Repr, Inhabited

/-- The surroundings of a run. -/
structure Host where
  files : FileSystem
  workingDirectory : WorkingDirectory
  environment : List Variable
  accountHome : Option Path := none
  deriving Inhabited

/-- Why a run breaks off, with nothing that could be reported as a failure. -/
inductive Panic where
  | notUnicode (v : Variable)
  deriving DecidableEq, Repr

/-- The wording of a panic. -/
def Panic.message : Panic → String
  | .notUnicode v => s!"the environment variable {v.name} is not Unicode"

namespace Host

/-! ### The environment -/

/-- The texts of the variables, the last one first, so that of two with the same name the later one
is found. -/
def texts (h : Host) : List (String × String) :=
  (h.environment.map fun v => (v.name, v.value)).reverse

/-- The variables as texts. -/
def readTexts (h : Host) : Except Panic (List (String × String)) :=
  match h.environment.find? (!·.isUnicode) with
  | some v => .error (.notUnicode v)
  | none => .ok h.texts

/-- The value of a variable among the texts of all. -/
def environment? (h : Host) (name : String) : Option String :=
  h.texts.lookup name

/-- The value of a variable that is asked for by itself; of two with the same name the earlier one
is found. -/
def valueOf? (h : Host) (name : String) : Option String :=
  (h.environment.find? (·.name == name)).map (·.value)

/-! ### Files -/

/-- Whether something stands at a path. -/
def holds (h : Host) (p : Path) : Bool :=
  h.files.holds h.workingDirectory p

/-- The text of the file at a path. -/
def readText (h : Host) (p : Path) : Except FileError String :=
  h.files.readText h.workingDirectory p

/-- The host after a text was written to the file at a path. -/
def writeText (h : Host) (p : Path) (text : String) : Except FileError Host :=
  (h.files.write h.workingDirectory p text.toUTF8).map fun files => { h with files }

/-! ### Directories -/

/-- The home directory of the user: the one that its variable names, or that of the account if the
variable is missing or empty. -/
def home? (h : Host) : Option Path :=
  match h.valueOf? "HOME" with
  | none | some "" => h.accountHome
  | some home => some ⟨home⟩

/-- The directory for configuration files: the one named by its variable if that is an absolute
path, else a directory below the home directory. -/
def configDirectory? (h : Host) : Option Path :=
  match h.valueOf? "XDG_CONFIG_HOME" with
  | some dir =>
    if (Path.mk dir).isAbsolute then some ⟨dir⟩ else h.home?.map (·.join ⟨".config"⟩)
  | none => h.home?.map (·.join ⟨".config"⟩)

end Host

end Depot
