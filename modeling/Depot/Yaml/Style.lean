import Depot.Yaml.Mark
import Depot.Yaml.Plain

/-!
# Styles of scalars

How a text is spelled as a scalar. A text of several lines is a block of lines, and a text of one
line is plain; where that would not read back as the same text, quotes are put around it. Single
quotes keep everything but what they cannot hold; double quotes hold any text.
-/

namespace Depot.Yaml

/-- How a scalar is spelled. -/
inductive Style where
  | plain
  | single
  | double
  | literal
  deriving DecidableEq, Repr

namespace Style

/-! ### What a text contains -/

/-- Whether a character needs no escape. -/
def isShown (c : Char) : Bool :=
  let n := c.toNat
  n == 0x0A || (0x20 ≤ n && n ≤ 0x7E) || (0xA0 ≤ n && n ≤ 0xFFFD && n != 0xFEFF) || 0x10000 ≤ n

/-- Whether two neighbours satisfy a predicate each. -/
def hasNeighbours (p q : Char → Bool) : List Char → Bool
  | c :: d :: rest => (p c && q d) || hasNeighbours p q (d :: rest)
  | _ => false

/-- Whether a character is a space. -/
def isSpace (c : Char) : Bool :=
  c == ' '

/-- Whether a word ends in front of a text. -/
def endsWord (rest : List Char) : Bool :=
  rest.head?.all fun c => isBlank c || isBreak c

/-- The characters that no plain scalar begins with. -/
def reserved : List Char :=
  "#,[]\x7b\x7d&*!|>'\"%@`".toList

/-- Whether a text begins like an indicator. -/
def beginsIndicator (cs : List Char) : Bool :=
  cs.take 3 == ['-', '-', '-'] || cs.take 3 == ['.', '.', '.'] ||
    match cs with
    | [] => false
    | c :: rest => reserved.contains c || ((c == '?' || c == '-') && endsWord rest)

/-- Whether a word of a text ends in a colon or begins with a number sign. -/
def hasIndicator (atWord : Bool) : List Char → Bool
  | [] => false
  | c :: rest =>
    (c == ':' && endsWord rest) || (c == '#' && atWord)
      || hasIndicator (isBlank c || isBreak c) rest

/-- Whether a text begins or ends with a space. -/
def hasOuterSpace (cs : List Char) : Bool :=
  cs.head?.any isSpace || cs.getLast?.any isSpace

/-! ### Choosing a style -/

/-- Whether only double quotes hold a text: a character needs an escape, or a space would be lost at
the end of a line. -/
def needsEscapes (cs : List Char) : Bool :=
  cs.any (!isShown ·) || hasNeighbours isSpace isBreak cs

/-- Whether a text may be plain. -/
def allowsPlain (cs : List Char) : Bool :=
  !needsEscapes cs && !cs.any isBreak && !hasOuterSpace cs && !beginsIndicator cs
    && !hasIndicator true cs

/-- Whether single quotes hold a text. -/
def allowsSingle (cs : List Char) : Bool :=
  !needsEscapes cs && !hasNeighbours isBreak isSpace cs

/-- Whether a text may be a block of lines. -/
def allowsLiteral (cs : List Char) : Bool :=
  !needsEscapes cs && !cs.getLast?.any isSpace

/-- Whether a text is a string when it is plain. -/
def readsAsString (s : String) : Bool :=
  Meaning.ofText s == .string && !Meaning.hasIdleZero s.toList

/-- The style that a string is spelled in. -/
def ofString (s : String) : Style :=
  let cs := s.toList
  if cs.contains '\n' then if allowsLiteral cs then .literal else .double
  else if readsAsString s && allowsPlain cs then .plain
  else if allowsSingle cs then .single
  else .double

end Style

end Depot.Yaml
