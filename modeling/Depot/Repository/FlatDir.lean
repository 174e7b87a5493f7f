import Depot.Infrastructure

/-!
# Flat directory repositories

A repository that looks for files by their names in some directories. A directory is resolved
against the base directory when it is added, and no two of them are equivalent as paths.
-/

namespace Depot

/-- A repository of plain directories. -/
structure FlatDirRepository where
  name : String
  dirs : List Path := []
  base : Path
  transport : Handle
  deriving DecidableEq, Repr, Inhabited

namespace FlatDirRepository

/-- The name that a new repository has. -/
def defaultName : String := "flatDir"

/-- A repository without directories. -/
def fresh (base : Path) (transport : Handle) : FlatDirRepository :=
  { name := defaultName, base, transport }

/-- What the repository is called in messages. -/
def displayName (r : FlatDirRepository) : String :=
  s!"flat directory repository '{r.name}'"

/-- A list of paths with one more at its end, unless an equivalent one is there. -/
def addPath (dirs : List Path) (p : Path) : List Path :=
  if dirs.any fun d => decide (d.Equiv p) then dirs else dirs ++ [p]

/-- Adds a directory at the end, unless an equivalent one is there. -/
def dir (r : FlatDirRepository) (p : Path) : FlatDirRepository :=
  { r with dirs := addPath r.dirs (r.base.join p) }

/-- Adds directories one after another. -/
def addDirs (r : FlatDirRepository) (ps : List Path) : FlatDirRepository :=
  ps.foldl dir r

/-- Replaces the directories. -/
def setDirs (r : FlatDirRepository) (ps : List Path) : FlatDirRepository :=
  addDirs { r with dirs := [] } ps

end FlatDirRepository

end Depot
