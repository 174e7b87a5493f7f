import Depot.Repository.FlatDir
import Depot.Repository.Ivy
import Depot.Repository.Kind
import Depot.Repository.Maven

/-!
# Repositories

A repository is of one of four kinds. A custom one wraps a resolver that a build brings along, and
is named by it.
-/

namespace Depot

/-- A resolver of the user's own, seen as a repository. -/
structure CustomRepository where
  name : String
  resolver : String
  transport : Handle
  deriving DecidableEq, Repr, Inhabited

/-- A repository named by the resolver that it wraps. -/
def CustomRepository.wrap (resolver : String) (transport : Handle) : CustomRepository :=
  { name := resolver, resolver, transport }

/-- A configured repository. -/
inductive Repository where
  | maven (r : MavenRepository)
  | ivy (r : IvyRepository)
  | flatDir (r : FlatDirRepository)
  | custom (r : CustomRepository)
  deriving DecidableEq, Repr, Inhabited

namespace Repository

/-- The name of a repository. -/
def name : Repository → String
  | .maven r => r.name
  | .ivy r => r.name
  | .flatDir r => r.name
  | .custom r => r.name

/-- The repository under another name. -/
def withName (name : String) : Repository → Repository
  | .maven r => .maven { r with name }
  | .ivy r => .ivy { r with name }
  | .flatDir r => .flatDir { r with name }
  | .custom r => .custom { r with name }

@[simp] theorem name_withName (name : String) (r : Repository) : (r.withName name).name = name := by
  cases r <;> rfl

/-- The kind of a repository. -/
def kind : Repository → Kind
  | .maven _ => .maven
  | .ivy _ => .ivy
  | .flatDir _ => .flatDir
  | .custom _ => .custom

@[simp] theorem kind_withName (name : String) (r : Repository) :
    (r.withName name).kind = r.kind := by
  cases r <;> rfl

/-- Whether a repository still has the name that its kind gives. A custom one has none. -/
def hasDefaultName : Repository → Bool
  | .maven r => r.name == MavenRepository.defaultName
  | .ivy r => r.name == IvyRepository.defaultName
  | .flatDir r => r.name == FlatDirRepository.defaultName
  | .custom _ => false

/-- The URL, for the kinds that have one. -/
def url? : Repository → Option String
  | .maven r => r.url
  | .ivy r => r.url
  | .flatDir _ | .custom _ => none

/-- The credentials, for the kinds that have some. -/
def credentials? : Repository → Option Credentials
  | .maven r => some r.credentials
  | .ivy r => some r.credentials
  | .flatDir _ | .custom _ => none

/-- The handles that a repository shares with its factory, for the kinds that hold all of them. -/
def infrastructure? : Repository → Option Infrastructure
  | .maven r => some r.infrastructure
  | .ivy r => some r.infrastructure
  | .flatDir _ | .custom _ => none

/-- The handle of the means of transport. -/
def transport : Repository → Handle
  | .maven r => r.infrastructure.transport
  | .ivy r => r.infrastructure.transport
  | .flatDir r => r.transport
  | .custom r => r.transport

/-- A repository in a sentence. -/
def describe (r : Repository) : String :=
  s!"{r.kind.text} repository '{r.name}'"

end Repository

end Depot
