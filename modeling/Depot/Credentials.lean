import Depot.Json.Text
import Depot.Text.Base64

/-!
# Password credentials

A user name and a password, either of which may be missing. The header for basic authorization is
there exactly when the user name is. The text shown for diagnosis tells whether there is a password
but never which one.

`Credentials.ofJson` reads credentials from an object with no other keys, or from an array of at
most two elements; `CredentialsError.message` words what it refuses.
-/

namespace Depot

/-- A user name and a password. -/
structure Credentials where
  username : Option String := none
  password : Option String := none
  deriving DecidableEq, Repr, Inhabited

/-- Why a value is not credentials. -/
inductive CredentialsError where
  | unknownField (name : String)
  | notAString (value : Json)
  | notCredentials (value : Json)
  | tooLong (length : Nat)
  deriving DecidableEq

/-- The wording of an error. -/
def CredentialsError.message : CredentialsError → String
  | .unknownField name => s!"unknown field `{name}`, expected `username` or `password`"
  | .notAString value => s!"invalid type: {value.describe}, expected a string"
  | .notCredentials value => s!"invalid type: {value.describe}, expected struct PasswordCredentials"
  | .tooLong length => s!"invalid length {length}, expected fewer elements in array"

namespace Credentials

/-- Neither a user name nor a password. -/
def empty : Credentials := {}

/-- Whether both parts are missing. -/
def isEmpty (c : Credentials) : Bool :=
  c.username.isNone && c.password.isNone

/-- What the header for basic authorization encodes: the two parts with a colon between them. -/
def userInfo (username : String) (password : Option String) : String :=
  username ++ ":" ++ password.getD ""

/-- The header for basic authorization. -/
def authHeader (c : Credentials) : Option String :=
  c.username.map fun username =>
    let octets := (userInfo username c.password).toUTF8.data.toList
    "Basic " ++ String.ofList (Text.Base64.encode octets)

/-- The spelling of a part for diagnosis. -/
private def showPart : Option String → String
  | none => "None"
  | some s => "Some(" ++ Text.quote s ++ ")"

/-- The text for diagnosis, with the password blotted out. -/
def debug (c : Credentials) : String :=
  "PasswordCredentials \x7b username: " ++ showPart c.username ++ ", password: "
    ++ showPart (c.password.map fun _ => "<redacted>") ++ " \x7d"

/-- A part of the credentials. -/
def partOfJson : Json → Except CredentialsError (Option String)
  | .null => .ok none
  | .string s => .ok (some s)
  | other => .error (.notAString other)

/-- Reads the fields of an object in their order. -/
def ofFields (c : Credentials) : List (String × Json) → Except CredentialsError Credentials
  | [] => .ok c
  | (key, value) :: rest =>
    if key = "username" then do
      ofFields { c with username := ← partOfJson value } rest
    else if key = "password" then do
      ofFields { c with password := ← partOfJson value } rest
    else .error (.unknownField key)

/-- Reads credentials. -/
def ofJson : Json → Except CredentialsError Credentials
  | .object fields => ofFields empty (Properties.ofList fields).entries
  | .array [] => .ok empty
  | .array [username] => do
    return { username := ← partOfJson username }
  | .array [username, password] => do
    return { username := ← partOfJson username, password := ← partOfJson password }
  | .array (username :: password :: more) => do
    let _ ← partOfJson username
    let _ ← partOfJson password
    throw (.tooLong (more.length + 2))
  | other => .error (.notCredentials other)

/-- The two parts as an object. -/
def toJson (c : Credentials) : Json :=
  .object [("username", .ofString? c.username), ("password", .ofString? c.password)]

@[simp] theorem authHeader_isSome (c : Credentials) :
    c.authHeader.isSome = c.username.isSome := by
  simp [authHeader]

end Credentials

end Depot
