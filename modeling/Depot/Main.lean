import Depot.Command.Run

/-!
# The program

Takes the surroundings of the process, runs the command line on them, prints what it answers and
ends with its exit code.
-/

namespace Depot.Main

/-- The pieces of some octets between those that equal a mark. -/
def splitAt (mark : UInt8) : List UInt8 → List (List UInt8)
  | [] => [[]]
  | octet :: rest =>
    match splitAt mark rest with
    | [] => [[octet]]
    | piece :: pieces =>
      if octet = mark then [] :: piece :: pieces else (octet :: piece) :: pieces

/-- The text of some octets, and whether they are Unicode. If not, only the octets of ASCII stay. -/
def textOf (octets : List UInt8) : String × Bool :=
  match String.fromUTF8? ⟨octets.toArray⟩ with
  | some text => (text, true)
  | none =>
    let readable (octet : UInt8) : Char := if octet < 128 then Char.ofNat octet.toNat else '\uFFFD'
    (String.ofList (octets.map readable), false)

/-- The variable that some octets define. Its name ends at an equals sign, and is not empty. -/
def variableOf? : List UInt8 → Option Variable
  | [] => none
  | first :: rest =>
    let name := rest.takeWhile (· != 61)
    if name.length < rest.length then
      let (name, isNameUnicode) := textOf (first :: name)
      let (value, isValueUnicode) := textOf (rest.drop (rest.takeWhile (· != 61)).length).tail
      some { name, value, isUnicode := isNameUnicode && isValueUnicode }
    else none

/-- The variables in the environment of the process. -/
def readEnvironment : IO (List Variable) := do
  let octets ← IO.FS.readBinFile "/proc/self/environ"
  return (splitAt 0 octets.toList).filterMap variableOf?

/-- The home directory in a line about an account, if it is the account of a user. -/
def homeInLine? (user : String) (line : String) : Option Path :=
  match line.splitOn ":" with
  | _ :: _ :: number :: _ :: _ :: home :: _ =>
    if number = user && !home.isEmpty then some ⟨home⟩ else none
  | _ => none

/-- The home directory of the account that the process belongs to. -/
def readAccountHome : IO (Option Path) := do
  try
    let status ← IO.FS.readFile "/proc/self/status"
    let users := (status.splitOn "\n").filterMap fun line =>
      match line.splitOn "\t" with
      | "Uid:" :: user :: _ => some user
      | _ => none
    let accounts ← IO.FS.readFile "/etc/passwd"
    return users.head?.bind fun user => (accounts.splitOn "\n").findSome? (homeInLine? user)
  catch _ => return none

/-- The working directory of the process. What is above one that was removed is not known; the root
stands in for it. -/
def readWorkingDirectory : IO WorkingDirectory := do
  try return .standing ⟨toString (← IO.currentDir)⟩
  catch _ => return .removed (.standing ⟨"/"⟩)

/-- What stands at a path in the file system of the process: the path of an entry, and the entry. A
path that may not be followed to its end has a locked directory above it. -/
def readEntry (p : Path) : IO (Option (Path × Entry)) := do
  try
    let content ← IO.FS.readBinFile p.text
    return some (p, .file content)
  catch
    | .inappropriateType .. => return some (p, .directory)
    | .permissionDenied .. =>
      try
        let _ ← IO.FS.realPath p.text
        return some (p, .lockedFile)
      catch _ => return p.parent?.map fun above => (above, .lockedDirectory)
    | _ => return none

/-- The host with what stands at a path in the file system of the process. -/
def addPath (h : Host) (p : Path) : IO Host := do
  match ← readEntry p with
  | none => return h
  | some (p, .directory) =>
    match h.files.walkMakingFrom (h.workingDirectory.startOf p) (Path.pieces p.text.toList) with
    | .ok (files, _) => return { h with files }
    | .error _ => return h
  | some (p, e) =>
    match h.files.put h.workingDirectory p e with
    | .ok files => return { h with files }
    | .error _ => return h

/-- The surroundings of the process, as far as some arguments make a run look at them. -/
def readHost (args : List String) : IO Host := do
  let workingDirectory ← readWorkingDirectory
  let environment ← readEnvironment
  let accountHome ← readAccountHome
  let files :=
    match workingDirectory with
    | .standing p => FileSystem.empty.addDirectories (FileSystem.positionOf p)
    | .removed _ => .empty
  let h : Host := { files, workingDirectory, environment, accountHome }
  (Command.paths h args).foldlM addPath h

end Depot.Main

/-- Runs the program on the arguments of the process. -/
def main (args : List String) : IO UInt32 := do
  let h ← Depot.Main.readHost args
  let outcome := Depot.Command.run h args
  IO.print outcome.output
  IO.eprint outcome.errors
  return outcome.exitCode.toUInt32
