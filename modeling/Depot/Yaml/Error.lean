import Depot.Text.Quoted
import Depot.Yaml.Document
import Depot.Yaml.Plain

/-!
# Why a YAML text cannot be read

Either the text is broken, or it goes beyond a limit, or a node is not what was expected in its
place. A mismatch is told with the place of the innermost node that knows it.
-/

namespace Depot.Yaml

open Decimal (Layout)

/-- What a node was found to be. -/
inductive Found where
  | meaning (m : Meaning)
  | string (s : String)
  | sequence
  | mapping
  | variant
  deriving DecidableEq

/-- Numbers inside messages are written without an exponent and keep a digit after the point. -/
def Found.layout : Layout := ⟨-400, 400, "", true⟩

/-- The wording of what was found. -/
def Found.text : Found → String
  | .meaning .null => "unit value"
  | .meaning (.bool b) => if b then "boolean `true`" else "boolean `false`"
  | .meaning (.integer i) => s!"integer `{i}`"
  | .meaning (.wide i) =>
    let width := if i < 0 then "i128" else "u128"
    s!"integer `{i}` as {width}"
  | .meaning (.double d) =>
    if d.isNaN then "floating point `NaN`"
    else if !d.isFinite then
      if d.isNegative then "floating point `-inf`" else "floating point `inf`"
    else s!"floating point `{layout.write d}`"
  | .meaning .string => "string"
  | .string s => "string " ++ Text.quote s
  | .sequence => "sequence"
  | .mapping => "map"
  | .variant => "enum"

/-- How a node differs from what was expected. -/
inductive Mismatch where
  | kind (found : Found) (expected : String)
  | value (found : String) (expected : String)
  | outOfRange
  | duplicateField (name : String)
  deriving DecidableEq

/-- The wording of a mismatch. -/
def Mismatch.text : Mismatch → String
  | .kind found expected => s!"invalid type: {found.text}, expected {expected}"
  | .value found expected => s!"invalid value: string {Text.quote found}, expected {expected}"
  | .outOfRange => "JSON number out of range"
  | .duplicateField name => s!"duplicate field `{name}`"

/-! ### Places in a document -/

/-- The way to a node from the root. -/
inductive Trail where
  | root
  | item (parent : Trail) (index : Nat)
  | field (parent : Trail) (key : String)
  | unknown (parent : Trail)
  | alias (parent : Trail)
  deriving DecidableEq, Repr

mutual

/-- The text of a way. -/
def Trail.text : Trail → String
  | .root => "."
  | .item parent index => s!"{parent.text}[{index}]"
  | .field parent key => parent.lead ++ key
  | .unknown parent => parent.lead ++ "?"
  | .alias parent => parent.text

/-- The text of a way in front of what lies beyond. -/
def Trail.lead : Trail → String
  | .root => ""
  | .item parent index => s!"{parent.text}[{index}]."
  | .field parent key => parent.lead ++ key ++ "."
  | .unknown parent => parent.lead ++ "?."
  | .alias parent => parent.text ++ "."

end

/-- Why a text cannot be read. -/
inductive Error where
  | broken (b : Broken)
  | mismatch (m : Mismatch) (place : Option (Mark × Trail))
  | endOfText
  | manyDocuments
  | tooDeep (mark : Mark)
  | tooManyAliases
  deriving DecidableEq

namespace Error

/-- A message with the place that it is about, unless that is the origin of the text. -/
def placed (message : String) (m : Mark) : String :=
  if m.isOrigin then message else s!"{message} at {m.text}"

/-- The wording of an error. -/
def message : Error → String
  | .broken (.fault f) => f.message
  | .broken (.unknownAnchor m) => placed "unknown anchor" m
  | .mismatch m none => m.text
  | .mismatch m (some (mark, trail)) =>
    let way := trail.text
    placed (if way = "." then m.text else s!"{way}: {m.text}") mark
  | .endOfText => "EOF while parsing a value"
  | .manyDocuments => "deserializing from YAML containing more than one document is not supported"
  | .tooDeep m => placed "recursion limit exceeded" m
  | .tooManyAliases => "repetition limit exceeded"

/-- An error with a place, if it is a mismatch that has none yet. -/
def locate (mark : Mark) (trail : Trail) : Error → Error
  | .mismatch m none => .mismatch m (some (mark, trail))
  | e => e

end Error

end Depot.Yaml
