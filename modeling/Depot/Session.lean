import Depot.ResourceIndex
import Depot.Roster

/-!
# Sessions

One factory at work: a roster of declared repositories, slots in which repositories are kept, and
the indices behind the handles that repositories hold. A step that fails leaves every slot as it
was, except that a configuration keeps the assignments made before it failed.
-/

namespace Depot

/-! ### Changes of one repository -/

/-- A change of one repository that cannot fail, unless its kind has no such part. -/
inductive Change where
  | name (name : String)
  | url (url : String)
  | addArtifactUrl (url : String)
  | artifactUrls (urls : List String)
  | addArtifactPattern (pattern : String)
  | addIvyPattern (pattern : String)
  | layout (layout : IvyLayout)
  | addDir (dir : Path)
  | dirs (dirs : List Path)
  | username (username : Option String)
  | password (password : Option String)
  deriving DecidableEq, Repr

namespace MavenRepository

/-- Changes a Maven repository. -/
def change? (r : MavenRepository) : Change → Option MavenRepository
  | .name name => some { r with name }
  | .url url => some { r with url := some url }
  | .addArtifactUrl url => some { r with artifactUrls := r.artifactUrls ++ [url] }
  | .artifactUrls artifactUrls => some { r with artifactUrls }
  | .username username => some { r with credentials := { r.credentials with username } }
  | .password password => some { r with credentials := { r.credentials with password } }
  | _ => none

end MavenRepository

namespace IvyRepository

/-- Changes an Ivy repository. -/
def change? (r : IvyRepository) : Change → Option IvyRepository
  | .name name => some { r with name }
  | .url url => some { r with url := some url }
  | .layout layout => some { r with layout }
  | .addArtifactPattern p =>
    some { r with extraArtifactPatterns := r.extraArtifactPatterns ++ [p] }
  | .addIvyPattern p => some { r with extraIvyPatterns := r.extraIvyPatterns ++ [p] }
  | .username username => some { r with credentials := { r.credentials with username } }
  | .password password => some { r with credentials := { r.credentials with password } }
  | _ => none

end IvyRepository

namespace FlatDirRepository

/-- Changes a flat directory repository. -/
def change? (r : FlatDirRepository) : Change → Option FlatDirRepository
  | .name name => some { r with name }
  | .addDir dir => some (r.dir dir)
  | .dirs dirs => some (r.setDirs dirs)
  | _ => none

end FlatDirRepository

namespace Repository

/-- Changes a repository, if its kind has the part. -/
def change? (r : Repository) (c : Change) : Option Repository :=
  match r with
  | .maven r => (r.change? c).map .maven
  | .ivy r => (r.change? c).map .ivy
  | .flatDir r => (r.change? c).map .flatDir
  | .custom r =>
    match c with
    | .name name => some (.custom { r with name })
    | _ => none

/-- Assigns a property of a repository, if its kind has properties. -/
def setProperty? (r : Repository) (property : String) (value : Json) :
    Option (Except Failure Repository) :=
  match r with
  | .maven r => some ((setProperty r property value).map .maven)
  | .ivy r => some ((setProperty r property value).map .ivy)
  | .flatDir r => some ((setProperty r property value).map .flatDir)
  | .custom _ => none

/-- Configures a repository as far as a property map can be applied, if its kind has properties. -/
def configure? (r : Repository) (m : Properties) : Option (Repository × Option Failure) :=
  match r with
  | .maven r => some ((configure r m).map .maven id)
  | .ivy r => some ((configure r m).map .ivy id)
  | .flatDir r => some ((configure r m).map .flatDir id)
  | .custom _ => none

end Repository

/-! ### Sessions -/

/-- A repository that a factory builds without a draft. -/
inductive Blueprint where
  | maven
  | mavenCentral
  | mavenLocal
  | ivy
  | flatDir
  deriving DecidableEq, Repr

/-- Builds a repository without a draft. -/
def Factory.build (f : Factory) (b : Blueprint) (used : Nat) : Except Failure Repository × Nat :=
  match b with
  | .maven => (f.maven used).map (.ok ∘ .maven) id
  | .mavenCentral => (f.mavenCentral used).map (.ok ∘ .maven) id
  | .mavenLocal => (f.mavenLocal used).map (·.map .maven) id
  | .ivy => (f.ivy used).map (.ok ∘ .ivy) id
  | .flatDir => (.ok (.flatDir f.flatDir), used)

/-- Why a step of a session answers without a repository. -/
inductive StepError where
  | emptySlot
  | notApplicable
  | failed (failure : Failure)
  deriving DecidableEq

/-- The state of a session. -/
structure Session where
  roster : Roster := {}
  slots : List (String × Repository) := []
  indices : Handle → ResourceIndex := fun _ => .empty

namespace Session

/-- A step that touches repositories or the shared index. -/
inductive Step where
  | build (b : Blueprint) (slot : String)
  | create (draft : Draft) (slot : String)
  | copy (source slot : String)
  | take (name slot : String)
  | declare (op : Roster.Operation)
  | setProperty (slot property : String) (value : Json)
  | configure (slot : String) (m : Properties)
  | change (slot : String) (c : Change)
  | store (url : String) (r : Resource)
  | clear (url : String)

/-- What a step answers. -/
abbrev Answer := Except StepError (Option Repository)

/-- The repository in a slot. -/
def slot? (s : Session) (slot : String) : Option Repository :=
  s.slots.lookup slot

/-- Puts a repository into a slot. -/
def put (s : Session) (slot : String) (r : Repository) : Session :=
  { s with slots := (slot, r) :: s.slots.filter (·.1 != slot) }

/-- Changes the index behind a handle. -/
def updateIndex (s : Session) (h : Handle) (change : ResourceIndex → ResourceIndex) : Session :=
  { s with indices := fun k => if k = h then change (s.indices k) else s.indices k }

/-- Puts a repository that was just built into a slot, and counts the holders it took. -/
def keep (s : Session) (slot : String) (built : Except Failure Repository × Nat) :
    Answer × Session :=
  let s := { s with roster := { s.roster with used := built.2 } }
  match built.1 with
  | .ok r => (.ok (some r), s.put slot r)
  | .error e => (.error (.failed e), s)

/-- Runs a step of a session. -/
def run (f : Factory) (step : Step) (s : Session) : Answer × Session :=
  match step with
  | .build b slot => s.keep slot (f.build b s.roster.used)
  | .create draft slot => s.keep slot (f.create draft s.roster.used)
  | .copy source slot =>
    match s.slot? source with
    | none => (.error .emptySlot, s)
    | some r => (.ok (some r), s.put slot r)
  | .take name slot =>
    match s.roster.get? name with
    | none => (.ok none, s)
    | some r => (.ok (some r), s.put slot r)
  | .declare op =>
    let (r, roster) := s.roster.run f op
    ((r.mapError .failed).map some, { s with roster })
  | .setProperty slot property value =>
    match s.slot? slot with
    | none => (.error .emptySlot, s)
    | some r =>
      match r.setProperty? property value with
      | none => (.error .notApplicable, s)
      | some (.error e) => (.error (.failed e), s)
      | some (.ok r) => (.ok (some r), s.put slot r)
  | .configure slot m =>
    match s.slot? slot with
    | none => (.error .emptySlot, s)
    | some r =>
      match r.configure? m with
      | none => (.error .notApplicable, s)
      | some (r, none) => (.ok (some r), s.put slot r)
      | some (r, some e) => (.error (.failed e), s.put slot r)
  | .change slot c =>
    match s.slot? slot with
    | none => (.error .emptySlot, s)
    | some r =>
      match r.change? c with
      | none => (.error .notApplicable, s)
      | some r => (.ok (some r), s.put slot r)
  | .store url r => (.ok none, s.updateIndex f.infrastructure.index (·.store url r))
  | .clear url => (.ok none, s.updateIndex f.infrastructure.index (·.clear url))

/-- What is known of a URL in the index behind a handle. -/
def lookup (s : Session) (h : Handle) (url : String) : Option Resource :=
  (s.indices h).lookup url

end Session

end Depot
