import Depot.Configure
import Depot.Draft
import Depot.Text.Percent

/-!
# Factories

A factory turns drafts into repositories. It knows where the local Maven repository is, resolves
relative paths against a base directory, hands out holders of credentials, and binds what it builds
to its own infrastructure.

The holders are numbered in the order in which they are handed out. Building a Maven or an Ivy
repository takes the next one, so each function here is given the number of holders handed out
before and answers with the number after. The local repository is looked for anew whenever a
repository at its URL is built, and where it is found may depend on the number of its holder.
-/

namespace Depot

/-- What repositories are built with. -/
structure Factory where
  locate : Nat → Except String Path
  base : Path
  holder : Nat → Credentials
  infrastructure : Infrastructure

namespace Factory

/-! ### URLs of directories -/

/-- A component as it stands in a URL. -/
def segment : Path.Component → Option (List Char)
  | .root | .current => none
  | .parent => some ['.', '.']
  | .name s => some (Text.Percent.encode (String.ofList s))

/-- The `file` URL of the directory at an absolute path. Each component is encoded by itself, and a
slash stands at the end. -/
def directoryUrl (p : Path) : String :=
  String.ofList ("file:///".toList
    ++ (p.components.filterMap segment).flatMap fun s => s ++ ['/'])

/-- The URL of a local repository at a location, resolved against the base directory. A path that is
still relative has no URL. -/
def localUrl (f : Factory) (location : Path) : Except Failure String :=
  let p := f.base.join location
  if p.isAbsolute then .ok (directoryUrl p)
  else
    .error (.localRepositoryUnavailable
      s!"Local Maven repository location {p.text} cannot be used as a URL")

/-! ### Building -/

/-- A Maven repository without a URL. -/
def maven (f : Factory) (used : Nat) : MavenRepository × Nat :=
  (.fresh (f.holder used) f.infrastructure, used + 1)

/-- A Maven repository at the well known public URL. -/
def mavenCentral (f : Factory) (used : Nat) : MavenRepository × Nat :=
  let (r, used) := f.maven used
  ({ r with url := some MavenRepository.centralUrl }, used)

/-- A Maven repository at the URL of the local one. The holder is taken before the local repository
is looked for. -/
def mavenLocal (f : Factory) (used : Nat) : Except Failure MavenRepository × Nat :=
  let (r, next) := f.maven used
  match f.locate used with
  | .error message => (.error (.localRepositoryUnavailable message), next)
  | .ok location => ((f.localUrl location).map fun url => { r with url := some url }, next)

/-- An Ivy repository without a URL. -/
def ivy (f : Factory) (used : Nat) : IvyRepository × Nat :=
  (.fresh (f.holder used) f.infrastructure, used + 1)

/-- A flat directory repository without directories. -/
def flatDir (f : Factory) : FlatDirRepository :=
  .fresh f.base f.infrastructure.transport

/-- A repository made from a resolver. -/
def custom (f : Factory) (resolver : String) : CustomRepository :=
  .wrap resolver f.infrastructure.transport

/-- The repository that a draft asks for. -/
def create (f : Factory) (draft : Draft) (used : Nat) : Except Failure Repository × Nat :=
  match draft.classify with
  | .error e => (.error e, used)
  | .ok (.existing r) => (.ok r, used)
  | .ok (.resolver name) => (.ok (.custom (f.custom name)), used)
  | .ok (.url url) =>
    let (r, used) := f.maven used
    (.ok (.maven { r with url := some url }), used)
  | .ok (.properties m) =>
    let (r, used) := f.maven used
    ((configured r m).map .maven, used)

end Factory

end Depot
