import Depot.Credentials
import Depot.FileSystem

/-!
# Failures

The ways in which the provisioning of a repository fails, and their wording. A failed assignment
names the property and the repository, and gives its reason as a cause of its own.
-/

namespace Depot

/-- Why a value cannot be assigned to a property. -/
inductive Reason where
  | unknownProperty
  | notAString (value : Json)
  | notStrings (value : Json)
  | unknownLayout (name : String)
  | notAMap (value : Json)
  | credentials (error : CredentialsError)
  | stated (text : String)
  deriving DecidableEq

/-- The wording of a reason. -/
def Reason.message : Reason → String
  | .unknownProperty => "no such property"
  | .notAString value => s!"expected a string, got {value.compact}"
  | .notStrings value => s!"expected a string or a list of strings, got {value.compact}"
  | .unknownLayout name => s!"unknown layout '{name}', expected one of: gradle, maven, ivy"
  | .notAMap value => s!"expected a map with username and password, got {value.compact}"
  | .credentials error => error.message
  | .stated text => text

/-- Why a repository cannot be provisioned. -/
inductive Failure where
  | unsupportedDescriptor (descriptor : String)
  | propertyAssignment (property target : String) (reason : Reason)
  | localRepositoryUnavailable (message : String)
  | duplicateRepository (name : String)
  | invalidConfig (message : String)
  | io (error : FileError)
  | serialization (message : String)
  deriving DecidableEq

/-- The wording of a failure. -/
def Failure.message : Failure → String
  | .unsupportedDescriptor descriptor => s!"Cannot create a repository from {descriptor}"
  | .propertyAssignment property target reason =>
    s!"Could not set property '{property}' on {target}: {reason.message}"
  | .localRepositoryUnavailable message => message
  | .duplicateRepository name =>
    s!"Cannot add a repository with name '{name}' as a repository with that name already exists"
  | .invalidConfig message => s!"Invalid repository configuration: {message}"
  | .io error => s!"IO error: {error.message}"
  | .serialization message => s!"Serialization error: {message}"

end Depot
