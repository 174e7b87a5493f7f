import Depot.Failure
import Depot.Infrastructure
import Depot.Variant

/-!
# Ivy repositories

A repository whose files are found by patterns. With a URL, the pattern of the layout stands below
it and comes first; patterns of the user's own follow in the order in which they were added. A
repository without patterns for descriptors uses its patterns for artifacts.
-/

namespace Depot

/-- A well known layout of an Ivy repository. -/
inductive IvyLayout where
  | gradle
  | maven
  | ivy
  deriving DecidableEq, Repr, Inhabited

namespace IvyLayout

/-- All layouts, in their order. -/
def all : List IvyLayout := [.gradle, .maven, .ivy]

/-- The spelling of a layout. -/
def text : IvyLayout → String
  | .gradle => "gradle"
  | .maven => "maven"
  | .ivy => "ivy"

/-- The layout with a spelling. -/
def ofText? (s : String) : Option IvyLayout :=
  all.find? (·.text == s)

@[simp] theorem ofText?_text (l : IvyLayout) : ofText? l.text = some l := by
  cases l <;> decide

/-- The layout with a spelling, or the reason why there is none. -/
def parse (s : String) : Except Reason IvyLayout :=
  match ofText? s with
  | some l => .ok l
  | none => .error (.unknownLayout s)

/-- The layout with a spelling, or the failure to give one to an Ivy repository. -/
def read (s : String) : Except Failure IvyLayout :=
  (parse s).mapError (.propertyAssignment "layout" "Ivy repository")

/-- The layout with the spelling of a variant, or the refusal of the spelling. -/
def ofVariant (s : String) : Except UnknownVariant IvyLayout :=
  match ofText? s with
  | some l => .ok l
  | none => .error ⟨s, all.map text⟩

/-- A pattern that serves artifacts and descriptors alike. -/
def plainPattern : String :=
  "[organisation]/[module]/[revision]/[type]s/[artifact](.[ext])"

/-- The pattern of artifacts below the URL. -/
def artifactPattern : IvyLayout → String
  | .gradle | .maven =>
    "[organisation]/[module]/[revision]/[artifact]-[revision](-[classifier])(.[ext])"
  | .ivy => plainPattern

/-- The pattern of descriptors below the URL. -/
def ivyPattern : IvyLayout → String
  | .gradle | .maven => "[organisation]/[module]/[revision]/ivy-[revision].xml"
  | .ivy => plainPattern

/-- Whether dots in an organisation separate directories. -/
def isM2Compatible : IvyLayout → Bool
  | .maven => true
  | .gradle | .ivy => false

end IvyLayout

/-- A repository whose files are found by patterns. -/
structure IvyRepository where
  name : String
  url : Option String := none
  layout : IvyLayout := .gradle
  extraArtifactPatterns : List String := []
  extraIvyPatterns : List String := []
  credentials : Credentials
  infrastructure : Infrastructure
  deriving DecidableEq, Repr, Inhabited

namespace IvyRepository

/-- The name that a new repository has. -/
def defaultName : String := "ivy"

/-- A repository without a URL. -/
def fresh (credentials : Credentials) (infrastructure : Infrastructure) : IvyRepository :=
  { name := defaultName, credentials, infrastructure }

/-- What the repository is called in messages. -/
def displayName (r : IvyRepository) : String :=
  s!"Ivy repository '{r.name}'"

/-- A text without the slashes at its end. -/
def trimSlashes (s : String) : String :=
  String.ofList (s.toList.reverse.dropWhile (· == '/')).reverse

/-- A pattern below a URL. -/
def below (url pattern : String) : String :=
  trimSlashes url ++ "/" ++ pattern

/-- All patterns of artifacts: the one of the layout below the URL, then the user's own. -/
def artifactPatterns (r : IvyRepository) : List String :=
  (r.url.map (below · r.layout.artifactPattern)).toList ++ r.extraArtifactPatterns

/-- The patterns of descriptors that were given as such. -/
def ownIvyPatterns (r : IvyRepository) : List String :=
  (r.url.map (below · r.layout.ivyPattern)).toList ++ r.extraIvyPatterns

/-- All patterns of descriptors: those given as such, or those of artifacts if there are none. -/
def ivyPatterns (r : IvyRepository) : List String :=
  if r.ownIvyPatterns.isEmpty then r.artifactPatterns else r.ownIvyPatterns

end IvyRepository

end Depot
