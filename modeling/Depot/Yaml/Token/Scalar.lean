import Depot.Yaml.Token.Basic

/-!
# Scalars

The text of a scalar in one of its four spellings. A plain or a quoted scalar may go on over several
lines: the blanks around a line break are dropped, a single break is read as a space, and of several
breaks the first is dropped. A block scalar keeps its lines, without their indentation; if it is
folded, a break between two lines that do not begin with a blank is read as a space.
-/

namespace Depot.Yaml

/-! ### Gaps between words -/

/-- What stands between two words of a scalar. -/
structure Gap where
  blanks : List Char := []
  first : Option Char := none
  more : List Char := []
  broken : Bool := false
  deriving Repr

/-- What a gap is read as. -/
def Gap.text (g : Gap) : List Char :=
  if !g.broken then g.blanks
  else
    match g.first with
    | none => g.more
    | some '\n' => if g.more.isEmpty then [' '] else g.more
    | some c => c :: g.more

/-- The rest of a gap after its first line break: the breaks that follow, and the mark behind all
blanks. A tab in a column before the limit is a fault. -/
def readGapLines (limit : Int) (more : List Char) (m : Mark) :
    List Char → Except Mark (List Char × Cursor)
  | '\r' :: '\n' :: rest => readGapLines limit ('\n' :: more) (m.down 2) rest
  | c :: rest =>
    if isBreak c then readGapLines limit (breakText c :: more) (m.down 1) rest
    else if c = '\t' ∧ m.column < limit then .error m
    else if isBlank c then readGapLines limit more (m.right 1) rest
    else .ok (more.reverse, ⟨c :: rest, m⟩)
  | [] => .ok (more.reverse, ⟨[], m⟩)

/-- The gap at a cursor, and the cursor behind it. If a line break was escaped before it, the gap
begins on a new line. -/
def readGap (limit : Int) (escaped : Bool) (c : Cursor) : Except Mark (Gap × Cursor) :=
  if escaped then
    (readGapLines limit [] c.mark c.rest).map fun (more, c) => ({ more, broken := true }, c)
  else
    let (blanks, c) := c.span isBlank
    match c.readBreak? with
    | none => .ok ({ blanks }, c)
    | some (first, c) =>
      (readGapLines limit [] c.mark c.rest).map fun (more, c) =>
        ({ first := some first, more, broken := true }, c)

/-! ### Quoted scalars -/

/-- The value of a hexadecimal digit. -/
def hexDigit? (c : Char) : Option Nat :=
  if c.isDigit then some (c.toNat - 48)
  else if 'a' ≤ c && c ≤ 'f' then some (c.toNat - 87)
  else if 'A' ≤ c && c ≤ 'F' then some (c.toNat - 55)
  else none

/-- The value of hexadecimal digits. -/
def hexValue? (ds : List Char) : Option Nat :=
  ds.foldl (fun n d => do return 16 * (← n) + (← hexDigit? d)) (some 0)

/-- What is meant by an escape sequence. -/
inductive Escape where
  | character (c : Char)
  | code (digits : Nat)

/-- The meaning of the character after a backslash. -/
def escape? : Char → Option Escape
  | '0' => some (.character '\x00')
  | 'a' => some (.character '\x07')
  | 'b' => some (.character '\x08')
  | 't' | '\t' => some (.character '\t')
  | 'n' => some (.character '\n')
  | 'v' => some (.character '\x0b')
  | 'f' => some (.character '\x0c')
  | 'r' => some (.character '\r')
  | 'e' => some (.character '\x1b')
  | ' ' => some (.character ' ')
  | '"' => some (.character '"')
  | '/' => some (.character '/')
  | '\\' => some (.character '\\')
  | 'N' => some (.character '\u0085')
  | '_' => some (.character '\u00a0')
  | 'L' => some (.character '\u2028')
  | 'P' => some (.character '\u2029')
  | 'x' => some (.code 2)
  | 'u' => some (.code 4)
  | 'U' => some (.code 8)
  | _ => none

/-- The character of an escape sequence at a cursor, and the cursor behind it. -/
def readEscape (start : Mark) (c : Cursor) : Except Fault (Char × Cursor) :=
  let fault := Fault.within .quotedEscape start
  match (c.rest.drop 1).head?.bind escape? with
  | none => .error (fault .unknownEscape c.mark)
  | some (.character x) => .ok (x, c.skip 2)
  | some (.code n) =>
    let c := c.skip 2
    let ds := c.rest.take n
    match if ds.length = n then hexValue? ds else none with
    | none => .error (fault .missingHexDigit c.mark)
    | some v =>
      if v.isValidChar then .ok (Char.ofNat v, c.skip n)
      else .error (fault .wrongCodePoint c.mark)

/-- One word of a quoted scalar, in reverse order before `done`, up to a blank, a line break or the
closing quote; and whether an escaped line break ended it. Each step takes a character, which bounds
the fuel. -/
def readQuotedWord (single : Bool) (start : Mark) :
    Nat → List Char → Cursor → Except Fault (List Char × Bool × Cursor)
  | 0, done, c => .ok (done, false, c)
  | fuel + 1, done, c =>
    match c.rest with
    | [] => .ok (done, false, c)
    | x :: rest =>
      if isBlank x || isBreak x then .ok (done, false, c)
      else if single then
        if x = '\'' then
          if rest.head? = some '\'' then readQuotedWord single start fuel (x :: done) (c.skip 2)
          else .ok (done, false, c)
        else readQuotedWord single start fuel (x :: done) (c.skip 1)
      else if x = '"' then .ok (done, false, c)
      else if x = '\\' then
        if rest.head?.any isBreak then .ok (done, true, (c.skip 1).skipBreak)
        else
          match readEscape start c with
          | .error f => .error f
          | .ok (e, c) => readQuotedWord single start fuel (e :: done) c
      else readQuotedWord single start fuel (x :: done) (c.skip 1)

/-- The words of a quoted scalar up to its closing quote, in reverse order before `done`. -/
def readQuotedWords (single : Bool) (start : Mark) :
    Nat → List Char → Cursor → Except Fault (List Char × Cursor)
  | 0, _, c => .error (.within .quotedScalar start .endOfStream c.mark)
  | fuel + 1, done, c =>
    if c.atDocumentMark '-' || c.atDocumentMark '.' then
      .error (.within .quotedScalar start .documentMark c.mark)
    else if c.rest.isEmpty then .error (.within .quotedScalar start .endOfStream c.mark)
    else
      match readQuotedWord single start c.rest.length done c with
      | .error f => .error f
      | .ok (done, escaped, c) =>
        if c.sees (if single then '\'' else '"') then .ok (done, c.skip 1)
        else
          match readGap 0 escaped c with
          | .error m => .error (.within .quotedScalar start .endOfStream m)
          | .ok (gap, c) => readQuotedWords single start fuel (gap.text.reverse ++ done) c

/-- The quoted scalar at a cursor. -/
def readQuoted (single : Bool) (c : Cursor) : Except Fault (Token × Cursor) :=
  match readQuotedWords single c.mark (c.rest.length + 1) [] (c.skip 1) with
  | .error f => .error f
  | .ok (done, after) => .ok (⟨.scalar done.reverse false, c.mark, after.mark⟩, after)

/-! ### Plain scalars -/

/-- Whether a character ends a plain scalar inside brackets or braces. -/
def isFlowEnd (c : Char) : Bool :=
  c == ',' || c == '[' || c == ']' || c == '\x7b' || c == '\x7d'

/-- One word of a plain scalar: its characters, or the place of a colon that may not stand there. -/
def readPlainWord (flow : Bool) (m : Mark) : List Char → Except Mark (List Char × Cursor)
  | [] => .ok ([], ⟨[], m⟩)
  | x :: rest =>
    if isBlank x || isBreak x then .ok ([], ⟨x :: rest, m⟩)
    else if flow && x == ':' && rest.head?.any (fun y => isFlowEnd y || y == '?') then .error m
    else if x == ':' && rest.head?.all (fun y => isBlank y || isBreak y) then
      .ok ([], ⟨x :: rest, m⟩)
    else if flow && isFlowEnd x then .ok ([], ⟨x :: rest, m⟩)
    else (readPlainWord flow (m.right 1) rest).map fun (word, c) => (x :: word, c)

/-- The words of a plain scalar: its text in reverse order before `done`, the mark behind the last
word, whether a line break followed it, and the cursor behind all blanks. -/
def readPlainWords (flow : Bool) (limit : Int) (start : Mark) :
    Nat → List Char → Gap → Mark → Cursor → Except Fault (List Char × Mark × Bool × Cursor)
  | 0, done, gap, stop, c => .ok (done, stop, gap.broken, c)
  | fuel + 1, done, gap, stop, c =>
    if c.atDocumentMark '-' || c.atDocumentMark '.' || c.sees '#' then
      .ok (done, stop, gap.broken, c)
    else
      match readPlainWord flow c.mark c.rest with
      | .error m => .error (.within .plainScalar start .unexpectedColon m)
      | .ok (word, c) =>
        let (done, stop, broken) :=
          if word.isEmpty then (done, stop, gap.broken)
          else (word.reverse ++ gap.text.reverse ++ done, c.mark, false)
        if c.rest.head?.all fun x => !(isBlank x || isBreak x) then .ok (done, stop, broken, c)
        else
          match readGap limit false c with
          | .error m => .error (.within .plainScalar start .tabViolatesIndentation m)
          | .ok (gap, c) =>
            if !flow && c.mark.column < limit then .ok (done, stop, gap.broken, c)
            else readPlainWords flow limit start fuel done gap stop c

/-- The plain scalar at a cursor, below a block with an indentation; and whether a line break
followed it. -/
def readPlain (flow : Bool) (indent : Int) (c : Cursor) : Except Fault (Token × Bool × Cursor) :=
  match readPlainWords flow (indent + 1) c.mark (c.rest.length + 1) [] {} c.mark c with
  | .error f => .error f
  | .ok (done, stop, broken, after) =>
    .ok (⟨.scalar done.reverse true, c.mark, stop⟩, broken, after)

/-! ### Block scalars -/

/-- What becomes of the line breaks at the end of a block scalar. -/
inductive Chomp where
  | strip
  | clip
  | keep
  deriving DecidableEq

/-- The empty lines at a cursor: their breaks, the greatest column reached, the mark behind the last
break, and the cursor at the next line that holds something. Spaces up to the indentation, or all
spaces if none is known, are skipped. -/
def readEmptyLines (indent : Option Nat) (start : Mark) (breaks : List Char) (widest : Nat)
    (stop m : Mark) : List Char → Except Fault (List Char × Nat × Mark × Cursor)
  | '\r' :: '\n' :: rest =>
    let m' := m.down 2
    readEmptyLines indent start ('\n' :: breaks) (max widest m.column) m' m' rest
  | c :: rest =>
    let inside := indent.all fun n => m.column < n
    if c = ' ' ∧ inside then readEmptyLines indent start breaks widest stop (m.right 1) rest
    else if c = '\t' ∧ inside then .error (.within .blockScalar start .tabForIndentation m)
    else if isBreak c then
      let m' := m.down 1
      readEmptyLines indent start (breakText c :: breaks) (max widest m.column) m' m' rest
    else .ok (breaks.reverse, max widest m.column, stop, ⟨c :: rest, m⟩)
  | [] => .ok (breaks.reverse, max widest m.column, stop, ⟨[], m⟩)

/-- The break in front of a line of a block scalar, as it is read. -/
def joinLines (literal blankBefore blankAfter : Bool) (lineBreak : Option Char)
    (breaks : List Char) : List Char :=
  if !literal && lineBreak == some '\n' && !blankBefore && !blankAfter then
    if breaks.isEmpty then [' '] else breaks
  else lineBreak.toList ++ breaks

/-- The lines of a block scalar: its text in reverse order before `done`, the break behind the last
line, the breaks of the empty lines after it, the mark behind them, and the cursor there. -/
def readBlockLines (literal : Bool) (indent : Nat) (start : Mark) :
    Nat → List Char → Bool → Option Char → List Char → Mark → Cursor →
      Except Fault (List Char × Option Char × List Char × Mark × Cursor)
  | 0, done, _, lineBreak, breaks, stop, c => .ok (done, lineBreak, breaks, stop, c)
  | fuel + 1, done, blankBefore, lineBreak, breaks, stop, c =>
    if c.mark.column ≠ indent ∨ c.rest.isEmpty then .ok (done, lineBreak, breaks, stop, c)
    else
      let blank := c.peek?.any isBlank
      let done := (joinLines literal blankBefore blank lineBreak breaks).reverse ++ done
      let (line, c) := c.span fun x => !isBreak x
      let done := line.reverse ++ done
      let (lineBreak, c) :=
        match c.readBreak? with
        | some (b, c) => (some b, c)
        | none => (none, c)
      match readEmptyLines (some indent) start [] 0 c.mark c.mark c.rest with
      | .error f => .error f
      | .ok (breaks, _, stop, c) =>
        readBlockLines literal indent start fuel done blank lineBreak breaks stop c

/-- The chomping indicator at a cursor, if there is one. -/
def readChomp (c : Cursor) : Option Chomp × Cursor :=
  if c.sees '+' then (some .keep, c.skip 1)
  else if c.sees '-' then (some .strip, c.skip 1)
  else (none, c)

/-- The indentation indicator at a cursor, if there is one. -/
def readIncrement (start : Mark) (c : Cursor) : Except Fault (Option Nat × Cursor) :=
  match c.peek? with
  | some d =>
    if !d.isDigit then .ok (none, c)
    else if d = '0' then .error (.within .blockScalar start .zeroIndentation c.mark)
    else .ok (some (d.toNat - 48), c.skip 1)
  | none => .ok (none, c)

/-- The indicators of a block scalar in either order. -/
def readIndicators (start : Mark) (c : Cursor) : Except Fault (Chomp × Option Nat × Cursor) :=
  match readChomp c with
  | (some chomp, c) => (readIncrement start c).map fun (n, c) => (chomp, n, c)
  | (none, c) =>
    match readIncrement start c with
    | .error f => .error f
    | .ok (none, c) => .ok (.clip, none, c)
    | .ok (some n, c) =>
      let (chomp, c) := readChomp c
      .ok (chomp.getD .clip, some n, c)

/-- The block scalar at a cursor, below a block with an indentation. -/
def readBlock (literal : Bool) (indent : Int) (c : Cursor) : Except Fault (Token × Cursor) := do
  let start := c.mark
  let (chomp, increment, c) ← readIndicators start (c.skip 1)
  let c := c.skipBlanks
  let c := if c.sees '#' then c.skipLine else c
  if !c.atLineEnd then
    throw (.within .blockScalar start .missingLineBreak c.mark)
  let c := c.skipBreak
  let known := increment.map fun n => (max indent 0).toNat + n
  let (breaks, widest, stop, c) ← readEmptyLines known start [] 0 c.mark c.mark c.rest
  let column := known.getD (max widest (max (indent + 1).toNat 1))
  let (done, lineBreak, breaks, stop, c) ←
    readBlockLines literal column start (c.rest.length + 1) [] false none breaks stop c
  let tail :=
    match chomp with
    | .strip => []
    | .clip => lineBreak.toList
    | .keep => lineBreak.toList ++ breaks
  return (⟨.scalar (done.reverse ++ tail) false, start, stop⟩, c)

end Depot.Yaml
