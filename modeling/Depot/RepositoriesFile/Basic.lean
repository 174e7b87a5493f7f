import Depot.Locator
import Depot.Roster

/-!
# Repositories files

A repositories file declares repositories: each entry is a value that `Roster.declare` understands.
It may also say where the local Maven repository is, and against which directory relative paths are
resolved.
-/

namespace Depot

/-- The contents of a repositories file. -/
structure RepositoriesFile where
  apiVersion : String := "quarry.io/v1"
  localRepository : Option String := none
  baseDir : Option Path := none
  repositories : List Json := []
  deriving DecidableEq, Inhabited

namespace RepositoriesFile

/-- The directory against which relative paths are resolved, for a file in some directory. -/
def baseIn (f : RepositoriesFile) (directory : Path) : Path :=
  match f.baseDir with
  | some base => directory.join base
  | none => directory

/-- A locator with the location that the file gives. -/
def configure (f : RepositoriesFile) (l : Locator) : Locator :=
  match f.localRepository with
  | some location => { l with override := some location }
  | none => l

/-- The locator of a host, with the location that the file gives. -/
def locator (f : RepositoriesFile) (h : Host) : Except Panic Locator :=
  (Locator.ofHost h).map f.configure

/-- The factory for a file in some directory, with a locator. It hands out empty holders of
credentials. -/
def factoryWith (f : RepositoriesFile) (h : Host) (directory : Path) (l : Locator) : Factory where
  locate _ := (l.locate h).mapError LocatorError.message
  base := f.baseIn directory
  holder _ := .empty
  infrastructure := .numbered 0

/-- The factory for a file in some directory. -/
def factory (f : RepositoriesFile) (h : Host) (directory : Path) : Except Panic Factory :=
  (f.locator h).map (f.factoryWith h directory)

/-- Declares every entry, up to the first that fails. -/
def declareAll (f : RepositoriesFile) (g : Factory) (s : Roster) : Except Failure Unit × Roster :=
  Roster.declareAll g f.repositories s

end RepositoriesFile

end Depot
