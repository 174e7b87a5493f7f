import Depot.Decimal.Shortest
import Depot.Json.Basic
import Depot.Text.Quoted

/-!
# The text of a JSON value

`Json.compact` writes a value without any blank, `Json.pretty` with one item per line and two spaces
for each level. A string is written as it is but for the double quote, the backslash and the
controls; a floating point number has the fewest digits that read back.
-/

namespace Depot

open Decimal (Layout)

namespace Json

/-- Floating point numbers are positional from `1e-5` up to `1e16`, keep a digit after the point,
and have a sign in their exponent. -/
def layout : Layout := ⟨-5, 16, "+", true⟩

/-- One character inside a string. -/
def escapeChar (c : Char) : List Char :=
  match c with
  | '"' => ['\\', '"']
  | '\\' => ['\\', '\\']
  | '\n' => ['\\', 'n']
  | '\r' => ['\\', 'r']
  | '\t' => ['\\', 't']
  | '\x08' => ['\\', 'b']
  | '\x0c' => ['\\', 'f']
  | c =>
    if c.toNat < 0x20 then
      ['\\', 'u', '0', '0', Nat.digitChar (c.toNat / 16), Nat.digitChar (c.toNat % 16)]
    else [c]

/-- A string between double quotes. -/
def writeString (s : String) : List Char :=
  '"' :: s.toList.flatMap escapeChar ++ ['"']

/-- A number. -/
def writeNumber : Number → List Char
  | .integer i => (toString i.value).toList
  | .double d => (layout.write d).toList

mutual

/-- The characters of a value, without blanks. -/
def write : Json → List Char
  | .null => "null".toList
  | .bool b => (if b then "true" else "false").toList
  | .number n => writeNumber n
  | .string s => writeString s
  | .array items => '[' :: writeItems items ++ [']']
  | .object fields => '\x7b' :: writeFields fields ++ ['\x7d']

/-- Values separated by commas. -/
def writeItems : List Json → List Char
  | [] => []
  | [v] => write v
  | v :: rest => write v ++ ',' :: writeItems rest

/-- Fields separated by commas. -/
def writeFields : List (String × Json) → List Char
  | [] => []
  | [(k, v)] => writeString k ++ ':' :: write v
  | (k, v) :: rest => writeString k ++ ':' :: write v ++ ',' :: writeFields rest

end

/-- The text of a value, without blanks. -/
def compact (v : Json) : String :=
  String.ofList (write v)

/-- A line break and two spaces for each level. -/
private def newLine (level : Nat) : List Char :=
  '\n' :: List.replicate (2 * level) ' '

mutual

/-- The characters of a value at a level, one item per line. -/
def writePretty (level : Nat) : Json → List Char
  | .array [] => ['[', ']']
  | .array (v :: rest) =>
    '[' :: newLine (level + 1) ++ writePretty (level + 1) v ++ writePrettyItems (level + 1) rest
      ++ newLine level ++ [']']
  | .object [] => ['\x7b', '\x7d']
  | .object ((k, v) :: rest) =>
    '\x7b' :: newLine (level + 1) ++ writeString k ++ ": ".toList ++ writePretty (level + 1) v
      ++ writePrettyFields (level + 1) rest ++ newLine level ++ ['\x7d']
  | .null => write .null
  | .bool b => write (.bool b)
  | .number n => write (.number n)
  | .string s => write (.string s)

/-- The items of an array after the first one. -/
def writePrettyItems (level : Nat) : List Json → List Char
  | [] => []
  | v :: rest => ',' :: newLine level ++ writePretty level v ++ writePrettyItems level rest

/-- The fields of an object after the first one. -/
def writePrettyFields (level : Nat) : List (String × Json) → List Char
  | [] => []
  | (k, v) :: rest =>
    ',' :: newLine level ++ writeString k ++ ": ".toList ++ writePretty level v
      ++ writePrettyFields level rest

end

/-- The text of a value, one item per line. -/
def pretty (v : Json) : String :=
  String.ofList (writePretty 0 v)

/-- What a value is called where another one was expected. -/
def describe : Json → String
  | .null => "null"
  | .bool b => s!"boolean `{b}`"
  | .number (.integer i) => s!"integer `{i.value}`"
  | .number (.double d) => s!"floating point `{layout.write d}`"
  | .string s => "string " ++ Text.quote s
  | .array _ => "sequence"
  | .object _ => "map"

end Json

end Depot
