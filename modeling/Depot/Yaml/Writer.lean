import Depot.Json.Basic
import Depot.Yaml.Style

/-!
# Writing YAML

A value as the text of a document in block style. A collection stands below the key that it belongs
to, two columns further in, except that the items of a sequence keep the column of the key; behind a
dash, and behind the colon of a key that has a line of its own, its first line is the same line.
-/

namespace Depot.Yaml

open Decimal (Layout)

/-- Some spaces. -/
def spaces (n : Nat) : List Char :=
  List.replicate n ' '

/-! ### Scalars -/

/-- Spaces in front of every line of a text that is not empty, and of its first line only if the
text is at the start of a line. -/
def indentLines (n : Nat) : Bool → List Char → List Char
  | _, [] => []
  | atStart, c :: rest =>
    if isBreak c then c :: indentLines n true rest
    else (if atStart then spaces n else []) ++ c :: indentLines n false rest

/-- Upper case hexadecimal digits of a number, filled with zeros up to a width. -/
def hexDigits (width n : Nat) : List Char :=
  let ds := (Nat.toDigits 16 n).map Char.toUpper
  List.replicate (width - ds.length) '0' ++ ds

/-- The escape of a character, without the backslash. -/
def escaped (c : Char) : List Char :=
  match c.toNat with
  | 0x00 => ['0']
  | 0x07 => ['a']
  | 0x08 => ['b']
  | 0x09 => ['t']
  | 0x0A => ['n']
  | 0x0B => ['v']
  | 0x0C => ['f']
  | 0x0D => ['r']
  | 0x1B => ['e']
  | 0x22 => ['"']
  | 0x5C => ['\\']
  | 0x85 => ['N']
  | 0xA0 => ['_']
  | 0x2028 => ['L']
  | 0x2029 => ['P']
  | n =>
    if n ≤ 0xFF then 'x' :: hexDigits 2 n
    else if n ≤ 0xFFFF then 'u' :: hexDigits 4 n
    else 'U' :: hexDigits 8 n

/-- One character between double quotes. -/
def doubleQuotedChar (c : Char) : List Char :=
  if !Style.isShown c || isBreak c || c == '"' || c == '\\' then '\\' :: escaped c else [c]

/-- One character between single quotes. -/
def singleQuotedChar (c : Char) : List Char :=
  if c == '\'' then ['\'', '\''] else [c]

/-- What stands behind the bar of a block of lines: the indentation, if the text does not show it by
itself, and what becomes of the line breaks at the end. -/
def literalHints (cs : List Char) : List Char :=
  let indentation := if cs.head?.any fun c => Style.isSpace c || isBreak c then ['2'] else []
  let chomping :=
    match cs.reverse with
    | [] => ['-']
    | c :: before =>
      if !isBreak c then ['-'] else if before.head?.all isBreak then ['+'] else []
  indentation ++ chomping

/-- The spelling of a string whose further lines have an indentation. -/
def spell (indent : Nat) (s : String) : List Char :=
  let cs := s.toList
  match Style.ofString s with
  | .plain => cs
  | .single => '\'' :: indentLines indent false (cs.flatMap singleQuotedChar ++ ['\''])
  | .double => '"' :: cs.flatMap doubleQuotedChar ++ ['"']
  | .literal => '|' :: literalHints cs ++ '\n' :: indentLines indent true cs

/-- The text with its last line ended. -/
def endLine (cs : List Char) : List Char :=
  if cs.getLast?.any isBreak then cs else cs ++ ['\n']

/-- Floating point numbers are positional from `1e-5` up to `1e16` and keep a digit after the
point. -/
def numberLayout : Layout := ⟨-5, 16, "", true⟩

/-- The spelling of a number. -/
def spellNumber : Json.Number → List Char
  | .integer i => (toString i.value).toList
  | .double d => (numberLayout.write d).toList

/-- The greatest number of octets in a key that shares a line with its value. -/
def keyLimit : Nat := 128

/-- Whether a key may share a line with its value. -/
def isSimpleKey (key : String) : Bool :=
  !key.toList.any isBreak && key.utf8ByteSize ≤ keyLimit

/-! ### Collections -/

mutual

/-- What stands behind a dash or a colon in some column, up to the end of its last line. Collections
may begin on the same line or below it. -/
def writeBehind (column : Nat) (sameLine : Bool) : Json → List Char
  | .null => " null\n".toList
  | .bool b => (if b then " true\n" else " false\n").toList
  | .number n => ' ' :: spellNumber n ++ ['\n']
  | .string s => ' ' :: endLine (spell (column + 2) s)
  | .array items =>
    if items.isEmpty then " []\n".toList
    else if sameLine then ' ' :: (writeItems (column + 2) items).drop (column + 2)
    else '\n' :: writeItems column items
  | .object fields =>
    if fields.isEmpty then " \x7b\x7d\n".toList
    else if sameLine then ' ' :: (writeFields (column + 2) fields).drop (column + 2)
    else '\n' :: writeFields (column + 2) fields

/-- The lines of a sequence whose dashes stand in some column. -/
def writeItems (column : Nat) : List Json → List Char
  | [] => []
  | v :: rest => spaces column ++ '-' :: writeBehind column true v ++ writeItems column rest

/-- The lines of a mapping whose keys begin in some column. -/
def writeFields (column : Nat) : List (String × Json) → List Char
  | [] => []
  | (key, v) :: rest =>
    let field :=
      if isSimpleKey key then spell (column + 2) key ++ ':' :: writeBehind column false v
      else
        '?' :: ' ' :: endLine (spell (column + 2) key)
          ++ spaces column ++ ':' :: writeBehind column true v
    spaces column ++ field ++ writeFields column rest

end

/-- The text of a document with a value as its root. -/
def write (v : Json) : String :=
  String.ofList <|
    match v with
    | .array (first :: rest) => writeItems 0 (first :: rest)
    | .object (first :: rest) => writeFields 0 (first :: rest)
    | v => (writeBehind 0 true v).drop 1

end Depot.Yaml
