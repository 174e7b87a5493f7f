import Depot.Yaml.Fault

/-!
# Tokens

The words of a YAML text, with the marks where they start and stop. The indentation of blocks is
made explicit by tokens that open and close them.
-/

namespace Depot.Yaml

/-- A tag, or a part of one, as octets. -/
abbrev Tag := List UInt8

/-- The octets of a text. -/
def Tag.ofChars (cs : List Char) : Tag :=
  (String.ofList cs).toUTF8.data.toList

/-- A word of a YAML text. -/
inductive Word where
  | streamStart
  | streamEnd
  | versionDirective (major minor : Nat)
  | tagDirective (handle : List Char) (lead : Tag)
  | documentStart
  | documentEnd
  | blockSequenceStart
  | blockMappingStart
  | blockEnd
  | flowSequenceStart
  | flowSequenceEnd
  | flowMappingStart
  | flowMappingEnd
  | blockEntry
  | flowEntry
  | key
  | value
  | alias (name : List Char)
  | anchor (name : List Char)
  | tag (handle : List Char) (suffix : Tag)
  | scalar (text : List Char) (plain : Bool)
  deriving DecidableEq, Repr

/-- A word with its place. -/
structure Token where
  word : Word
  start : Mark
  stop : Mark
  deriving DecidableEq, Repr

end Depot.Yaml
