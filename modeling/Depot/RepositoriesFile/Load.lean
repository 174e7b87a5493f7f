import Depot.RepositoriesFile.Text

/-!
# Loading and saving repositories files

The default file stands in the directory for configuration files; when it is missing, it counts as
an empty one. A file that is named has to be there.
-/

namespace Depot

namespace RepositoriesFile

/-- The path of the default file. -/
def defaultPath (h : Host) : Except Failure Path :=
  match h.configDirectory? with
  | some dir => .ok ((dir.join ⟨"quarry"⟩).join ⟨"repositories.yaml"⟩)
  | none => .error (.invalidConfig "Could not determine config directory")

/-- The file at a path. -/
def loadFrom (h : Host) (p : Path) : Except Failure RepositoriesFile := do
  let text ← (h.readText p).mapError .io
  ofYaml text

/-- The default file, or an empty one. -/
def load (h : Host) : Except Failure RepositoriesFile := do
  let p ← defaultPath h
  if h.holds p then loadFrom h p else return {}

/-- The host after a file was saved at a path. -/
def save (f : RepositoriesFile) (h : Host) (p : Path) : Except Failure Host :=
  (h.writeText p f.toYaml).mapError .io

end RepositoriesFile

end Depot
