import Depot.Credentials
import Depot.Infrastructure

/-!
# Maven repositories

A repository with the Maven layout below a URL. The URL is kept as it was given.
-/

namespace Depot

/-- A repository with the Maven layout. -/
structure MavenRepository where
  name : String
  url : Option String := none
  artifactUrls : List String := []
  credentials : Credentials
  infrastructure : Infrastructure
  deriving DecidableEq, Repr, Inhabited

namespace MavenRepository

/-- The name that a new repository has. -/
def defaultName : String := "maven"

/-- A repository without a URL. -/
def fresh (credentials : Credentials) (infrastructure : Infrastructure) : MavenRepository :=
  { name := defaultName, credentials, infrastructure }

/-- The public repository that is known to everyone. -/
def centralUrl : String := "https://repo1.maven.org/maven2/"

/-- What the repository is called in messages. -/
def displayName (r : MavenRepository) : String :=
  s!"Maven repository '{r.name}'"

end MavenRepository

end Depot
