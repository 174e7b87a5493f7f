import Depot.RepositoriesFile.Basic
import Depot.Yaml.Value
import Depot.Yaml.Writer

/-!
# The text of a repositories file

A repositories file is a mapping in YAML. Every field may be left out, and so may the whole mapping;
fields that are not known are passed over. A field that is given twice is an error.
-/

namespace Depot

namespace RepositoriesFile

open Yaml (Document Error Node Trail)

/-! ### Reading -/

/-- The names of the fields. -/
def fieldNames : List String :=
  ["apiVersion", "localRepository", "baseDir", "repositories"]

/-- How deep the collections inside the root may nest. -/
def depthLimit : Nat := 127

/-- The file with the field of a name read from a node. -/
def readField (d : Document) (f : RepositoriesFile) (name : String) (trail : Trail) (n : Node)
    (jumps : Nat) : Except Error (RepositoriesFile × Nat) :=
  match name with
  | "apiVersion" => do
    let (apiVersion, jumps) ← d.readText "a string" trail n jumps
    return ({ f with apiVersion }, jumps)
  | "localRepository" => do
    let (localRepository, jumps) ← d.readOptionalText "a string" trail n jumps
    return ({ f with localRepository }, jumps)
  | "baseDir" => do
    let (dir, jumps) ← d.readOptionalText "path string" trail n jumps
    return ({ f with baseDir := dir.map Path.mk }, jumps)
  | "repositories" => do
    let (repositories, jumps) ← d.readList depthLimit trail n jumps
    return ({ f with repositories }, jumps)
  | _ => do
    d.ignore n
    return (f, jumps)

/-- Reads the keys and values of the root in turn. The known fields that were read before are
`seen`. -/
def readFields (d : Document) (complete : Bool) (seen : List String) (f : RepositoriesFile) :
    List Node → Nat → Except Error RepositoriesFile
  | [], _ => if complete then .ok f else .error d.cutError
  | k :: rest, jumps => do
    let (name, jumps) ← d.readText "field identifier" .root k jumps
    if seen.contains name then throw (.mismatch (.duplicateField name) none)
    match rest with
    | [] => throw d.cutError
    | v :: rest =>
      let (f, jumps) ← readField d f name (Yaml.valueTrail .root k) v jumps
      readFields d complete (if fieldNames.contains name then name :: seen else seen) f rest jumps

/-- The file that the root of a document stands for. -/
def ofRoot (d : Document) : Except Error RepositoriesFile :=
  match d.root with
  | none => if d.broken.isSome then .error d.cutError else .ok {}
  | some (.mapping mark _ children complete) =>
    (readFields d complete [] {} children 0).mapError (Error.locate mark .root)
  | some n => if Yaml.isBare n then .ok {} else Yaml.notCollection "struct RepositoriesFile" .root n

/-- The file that a document stands for. There may be no other document behind it. -/
def ofDocument (d : Document) : Except Error RepositoriesFile := do
  let f ← ofRoot d
  match d.broken with
  | some b => throw (.broken b)
  | none => if d.hasMore then throw .manyDocuments else return f

/-- The file that a text stands for. -/
def ofYaml (text : String) : Except Failure RepositoriesFile :=
  (ofDocument (Document.read text)).mapError fun e => .serialization e.message

/-! ### Writing -/

/-- The file as a value. Options that are not set are left out. -/
def toJson (f : RepositoriesFile) : Json :=
  let option (name : String) (value : Option String) : List (String × Json) :=
    (value.map fun s => (name, .string s)).toList
  .object <| [("apiVersion", .string f.apiVersion)]
    ++ option "localRepository" f.localRepository
    ++ option "baseDir" (f.baseDir.map Path.text)
    ++ [("repositories", .array f.repositories)]

/-- The text of a file. -/
def toYaml (f : RepositoriesFile) : String :=
  Yaml.write f.toJson

end RepositoriesFile

end Depot
