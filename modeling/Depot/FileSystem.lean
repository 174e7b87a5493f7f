import Depot.Path

/-!
# File systems

A file system is what stands at each position below the root: a directory, or a file with its
octets, or one of both that is locked. A position is a list of names. `FileSystem.find` follows a
path from a working directory, one component after another, so that `..` leaves the directory that
was reached. A working directory may have been removed since it was entered.

`FileSystem.put` leaves an entry at a path, with the directories above it.

`FileError` lists the ways in which a file cannot be read or written; `FileError.message` words
them.
-/

namespace Depot

/-- Why a file cannot be read or written. -/
inductive FileError where
  | notFound
  | permissionDenied
  | exists
  | notADirectory
  | isADirectory
  | nameTooLong
  | nulInName
  | notUtf8
  | other (message : String)
  deriving DecidableEq, Repr

/-- The wording of an error. -/
def FileError.message : FileError → String
  | .notFound => "No such file or directory (os error 2)"
  | .permissionDenied => "Permission denied (os error 13)"
  | .exists => "File exists (os error 17)"
  | .notADirectory => "Not a directory (os error 20)"
  | .isADirectory => "Is a directory (os error 21)"
  | .nameTooLong => "File name too long (os error 36)"
  | .nulInName => "file name contained an unexpected NUL byte"
  | .notUtf8 => "stream did not contain valid UTF-8"
  | .other message => message

/-- What stands at a position. A locked file can neither be read nor written, and a locked directory
can neither be read nor entered. -/
inductive Entry where
  | directory
  | file (content : ByteArray)
  | lockedFile
  | lockedDirectory

/-- The directory that relative paths are followed from. One that was removed from the directory
above it has nothing in it any more and no path, but it can still be left. -/
inductive WorkingDirectory where
  | standing (path : Path)
  | removed (above : WorkingDirectory)
  deriving DecidableEq, Inhabited

namespace WorkingDirectory

/-- The path of a working directory. -/
def path : WorkingDirectory → Except FileError Path
  | .standing p => .ok p
  | .removed _ => .error .notFound

/-- The directory that a path is followed from: the root, or the working directory if the path is
relative. -/
def startOf (wd : WorkingDirectory) (p : Path) : WorkingDirectory :=
  if p.isAbsolute then .standing ⟨"/"⟩ else wd

end WorkingDirectory

/-- The positions below the root that something stands at. -/
structure FileSystem where
  entries : List (List (List Char) × Entry)
  deriving Inhabited

namespace FileSystem

/-- Nothing but the root. -/
def empty : FileSystem := ⟨[]⟩

/-- What stands at a position; the root is a directory. -/
def entryAt? (fs : FileSystem) (position : List (List Char)) : Option Entry :=
  if position.isEmpty then some .directory else fs.entries.lookup position

/-- A directory at a position, unless something stands there. -/
def addDirectory (fs : FileSystem) (position : List (List Char)) : FileSystem :=
  match fs.entryAt? position with
  | some _ => fs
  | none => ⟨(position, .directory) :: fs.entries⟩

/-- Directories at a position and all those above it. -/
def addDirectories (fs : FileSystem) (position : List (List Char)) : FileSystem :=
  (List.range (position.length + 1)).foldl (fun fs n => fs.addDirectory (position.take n)) fs

/-- A file at a position, in directories that are made for it. -/
def addFile (fs : FileSystem) (position : List (List Char)) (content : ByteArray) : FileSystem :=
  ⟨(position, .file content) :: (fs.addDirectories position.dropLast).entries⟩

/-- The greatest number of octets in a name. -/
def nameLimit : Nat := 255

/-- The greatest number of octets in the text of a path. -/
def pathLimit : Nat := 4095

/-- Follows the pieces of a path from the position of a directory. -/
def walk (fs : FileSystem) (position : List (List Char)) :
    List (List Char) → Except FileError (List (List Char) × Entry)
  | [] =>
    match fs.entryAt? position with
    | some e => .ok (position, e)
    | none => .error .notFound
  | piece :: rest =>
    match fs.entryAt? position with
    | none => .error .notFound
    | some (.file _) | some .lockedFile => .error .notADirectory
    | some .lockedDirectory => .error .permissionDenied
    | some .directory =>
      if Path.isIdle piece then fs.walk position rest
      else if piece = ['.', '.'] then fs.walk position.dropLast rest
      else if nameLimit < (String.ofList piece).utf8ByteSize then .error .nameTooLong
      else fs.walk (position ++ [piece]) rest

/-- The position of an absolute path, as its names. -/
def positionOf (p : Path) : List (List Char) :=
  (Path.pieces p.text.toList).filter fun piece => !Path.isIdle piece

/-- Follows the pieces of a path from a working directory. The only way out of one that was removed
leads to the directory above. -/
def walkFrom (fs : FileSystem) : WorkingDirectory → List (List Char) → Except FileError Entry
  | .standing p, pieces => (fs.walk (positionOf p) pieces).map Prod.snd
  | .removed _, [] => .ok .directory
  | .removed above, piece :: rest =>
    if Path.isIdle piece then fs.walkFrom (.removed above) rest
    else if piece = ['.', '.'] then fs.walkFrom above rest
    else .error .notFound

/-- What stands at a path, which is taken from the working directory if it is relative. The empty
path leads nowhere. -/
def find (fs : FileSystem) (wd : WorkingDirectory) (p : Path) : Except FileError Entry :=
  if p.text.toList.contains '\x00' then .error .nulInName
  else if p.text.isEmpty then .error .notFound
  else if pathLimit < p.text.utf8ByteSize then .error .nameTooLong
  else fs.walkFrom (wd.startOf p) (Path.pieces p.text.toList)

/-- Whether something stands at a path. -/
def holds (fs : FileSystem) (wd : WorkingDirectory) (p : Path) : Bool :=
  match fs.find wd p with
  | .ok _ => true
  | .error _ => false

/-- The text of the file at a path. -/
def readText (fs : FileSystem) (wd : WorkingDirectory) (p : Path) : Except FileError String :=
  match fs.find wd p with
  | .error e => .error e
  | .ok .directory => .error .isADirectory
  | .ok .lockedFile | .ok .lockedDirectory => .error .permissionDenied
  | .ok (.file content) =>
    match String.fromUTF8? content with
    | some text => .ok text
    | none => .error .notUtf8

/-! ### Writing -/

/-- Follows the pieces of a path from the position of a directory and makes the directories that are
missing. -/
def walkMaking (fs : FileSystem) (position : List (List Char)) :
    List (List Char) → Except FileError (FileSystem × List (List Char))
  | [] =>
    match fs.entryAt? position with
    | none => .error .notFound
    | some (.file _) | some .lockedFile => .error .notADirectory
    | some .lockedDirectory => .error .permissionDenied
    | some .directory => .ok (fs, position)
  | piece :: rest =>
    match fs.entryAt? position with
    | none => .error .notFound
    | some (.file _) | some .lockedFile => .error .notADirectory
    | some .lockedDirectory => .error .permissionDenied
    | some .directory =>
      if Path.isIdle piece then fs.walkMaking position rest
      else if piece = ['.', '.'] then fs.walkMaking position.dropLast rest
      else if nameLimit < (String.ofList piece).utf8ByteSize then .error .nameTooLong
      else
        let below := position ++ [piece]
        match fs.entryAt? below with
        | some (.file _) | some .lockedFile =>
          .error (if rest.isEmpty then .exists else .notADirectory)
        | some .directory | some .lockedDirectory => fs.walkMaking below rest
        | none => (fs.addDirectory below).walkMaking below rest

/-- Follows the pieces of a path from a working directory and makes the directories that are
missing. None can be made in a directory that was removed. -/
def walkMakingFrom (fs : FileSystem) : WorkingDirectory → List (List Char) →
    Except FileError (FileSystem × List (List Char))
  | .standing p, pieces => fs.walkMaking (positionOf p) pieces
  | .removed _, [] => .error .notFound
  | .removed above, piece :: rest =>
    if Path.isIdle piece then fs.walkMakingFrom (.removed above) rest
    else if piece = ['.', '.'] then fs.walkMakingFrom above rest
    else .error .notFound

/-- The file system with an entry at a path, in directories that are made for it. A file that stands
there is replaced, unless it is locked. -/
def put (fs : FileSystem) (wd : WorkingDirectory) (p : Path) (e : Entry) :
    Except FileError FileSystem :=
  if p.text.toList.contains '\x00' then .error .nulInName
  else if p.text.isEmpty then .error .notFound
  else if pathLimit < p.text.utf8ByteSize then .error .nameTooLong
  else
    let pieces := Path.pieces p.text.toList
    match fs.walkMakingFrom (wd.startOf p) pieces.dropLast, pieces.getLast? with
    | .error e, _ => .error e
    | .ok _, none => .error .notFound
    | .ok (fs, directory), some name =>
      if Path.isIdle name || name == ['.', '.'] then .error .isADirectory
      else if nameLimit < (String.ofList name).utf8ByteSize then .error .nameTooLong
      else
        let position := directory ++ [name]
        match fs.entryAt? position with
        | some .directory | some .lockedDirectory => .error .isADirectory
        | some .lockedFile => .error .permissionDenied
        | some (.file _) | none => .ok ⟨(position, e) :: fs.entries⟩

/-- The file system with a file at a path. -/
def write (fs : FileSystem) (wd : WorkingDirectory) (p : Path) (content : ByteArray) :
    Except FileError FileSystem :=
  fs.put wd p (.file content)

end FileSystem

end Depot
