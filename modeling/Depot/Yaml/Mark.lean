/-!
# Positions in a YAML text

A mark counts characters, lines and columns from zero. A cursor is the text that is left at a mark.
-/

namespace Depot.Yaml

/-- A position in a text. -/
structure Mark where
  index : Nat := 0
  line : Nat := 0
  column : Nat := 0
  deriving DecidableEq, Repr, Inhabited

namespace Mark

/-- Whether this is the first column of the first line. -/
def isOrigin (m : Mark) : Bool :=
  m.line == 0 && m.column == 0

/-- Further to the right by some characters. -/
def right (m : Mark) (n : Nat) : Mark :=
  { m with index := m.index + n, column := m.column + n }

/-- At the start of the next line, after a line break of some characters. -/
def down (m : Mark) (n : Nat) : Mark :=
  ⟨m.index + n, m.line + 1, 0⟩

/-- The wording of a position, counted from one. -/
def text (m : Mark) : String :=
  s!"line {m.line + 1} column {m.column + 1}"

end Mark

/-! ### Characters -/

/-- Whether a character ends a line. -/
def isBreak (c : Char) : Bool :=
  c == '\n' || c == '\r' || c == '\u0085' || c == '\u2028' || c == '\u2029'

/-- Whether a character is a space or a tab. -/
def isBlank (c : Char) : Bool :=
  c == ' ' || c == '\t'

/-- Whether a character may stand in a name. -/
def isWord (c : Char) : Bool :=
  c.isAlphanum || c == '_' || c == '-'

/-- What a line break stands for: a line feed, or itself if it is a Unicode separator. -/
def breakText (c : Char) : Char :=
  if c == '\u2028' || c == '\u2029' then c else '\n'

/-- The text of a YAML stream may hold these characters only. -/
def isAllowed (c : Char) : Bool :=
  let n := c.toNat
  n == 0x09 || n == 0x0A || n == 0x0D || (0x20 ≤ n && n ≤ 0x7E) || n == 0x85
    || (0xA0 ≤ n && n ≤ 0xFFFD) || 0x10000 ≤ n

/-! ### Cursors -/

/-- The text that is left at a mark. -/
structure Cursor where
  rest : List Char
  mark : Mark := {}
  deriving Inhabited

namespace Cursor

/-- The next character. -/
def peek? (c : Cursor) : Option Char :=
  c.rest.head?

/-- Whether the next character is the given one. -/
def sees (c : Cursor) (x : Char) : Bool :=
  c.rest.head? == some x

/-- Past some characters of a line. -/
def skip (c : Cursor) (n : Nat) : Cursor :=
  ⟨c.rest.drop n, c.mark.right n⟩

/-- The characters of a line that satisfy a predicate, and the cursor behind them. -/
def span (c : Cursor) (p : Char → Bool) : List Char × Cursor :=
  let taken := c.rest.takeWhile p
  (taken, ⟨c.rest.drop taken.length, c.mark.right taken.length⟩)

/-- Past the characters of a line that satisfy a predicate. -/
def skipWhile (c : Cursor) (p : Char → Bool) : Cursor :=
  (c.span p).2

/-- Past spaces and tabs. -/
def skipBlanks (c : Cursor) : Cursor :=
  c.skipWhile isBlank

/-- To the end of the line. -/
def skipLine (c : Cursor) : Cursor :=
  c.skipWhile fun x => !isBreak x

/-- What the line break at the cursor stands for, and the cursor behind it. -/
def readBreak? (c : Cursor) : Option (Char × Cursor) :=
  match c.rest with
  | '\r' :: '\n' :: rest => some ('\n', ⟨rest, c.mark.down 2⟩)
  | x :: rest => if isBreak x then some (breakText x, ⟨rest, c.mark.down 1⟩) else none
  | [] => none

/-- Past the line break at the cursor, if there is one. -/
def skipBreak (c : Cursor) : Cursor :=
  match c.readBreak? with
  | some (_, c) => c
  | none => c

/-- Whether the text ends here, or a line or a blank follows after some characters. -/
def blankAfter (c : Cursor) (n : Nat) : Bool :=
  match c.rest.drop n with
  | [] => true
  | x :: _ => isBlank x || isBreak x

/-- Whether the line, or the text, ends here. -/
def atLineEnd (c : Cursor) : Bool :=
  c.rest.head?.all isBreak

/-- Whether a line begins here with three given characters and a blank or nothing behind them. -/
def atDocumentMark (c : Cursor) (x : Char) : Bool :=
  c.mark.column == 0 && c.rest.take 3 == [x, x, x] && c.blankAfter 3

end Cursor

end Depot.Yaml
