import Depot.Yaml.Token.Property

/-!
# The stream of tokens

`tokens` cuts a text into tokens, up to the first fault. A key is only known as one by the colon
behind it, so the tokens from a place on where a key may have begun are held back until the colon is
seen or can no longer come: a key without a question mark ends on the line where it begins, within
1024 characters. The tokens before a fault are those that nothing held back when it was found.
-/

namespace Depot.Yaml

/-- A place where a key may have begun: the number of its token, and whether nothing but a key may
stand there. -/
structure PendingKey where
  required : Bool
  number : Nat
  mark : Mark
  deriving Repr

/-- What is known between two tokens. `key` is the pending key in the innermost brackets or braces,
`outer` holds those of the brackets and braces around them. -/
structure Scan where
  cursor : Cursor
  queue : List Token := []
  taken : Nat := 0
  indent : Int := -1
  indents : List Int := []
  keyAllowed : Bool := true
  key : Option PendingKey := none
  outer : List (Option PendingKey) := []

namespace Scan

/-- Whether the cursor is inside brackets or braces. -/
def inFlow (s : Scan) : Bool :=
  !s.outer.isEmpty

/-- The place of the cursor. -/
def mark (s : Scan) : Mark :=
  s.cursor.mark

/-- Puts a token behind all others. -/
def push (s : Scan) (t : Token) : Scan :=
  { s with queue := s.queue ++ [t] }

/-- Puts a token in the place of the one with a number. -/
def insertAt (s : Scan) (number : Nat) (t : Token) : Scan :=
  let n := number - s.taken
  { s with queue := s.queue.take n ++ t :: s.queue.drop n }

/-! ### Pending keys -/

/-- The fault of a key that lacks its colon. -/
def colonFault (s : Scan) (k : PendingKey) : Fault :=
  .within .simpleKey k.mark .missingColon s.mark

/-- Whether a key that began at a mark can no longer end at the cursor. -/
def isStale (s : Scan) (k : PendingKey) : Bool :=
  k.mark.line < s.mark.line || k.mark.index + 1024 < s.mark.index

/-- Gives up the pending keys that can no longer get their colon. -/
def dropStale (s : Scan) : Except Fault Scan :=
  let isLate (k : Option PendingKey) : Bool := k.any s.isStale
  match (s.key :: s.outer).reverse.find? fun k => isLate k && k.any PendingKey.required with
  | some (some k) => .error (s.colonFault k)
  | _ =>
    let keep (k : Option PendingKey) : Option PendingKey := if isLate k then none else k
    .ok { s with key := keep s.key, outer := s.outer.map keep }

/-- Gives up the innermost pending key. -/
def dropKey (s : Scan) : Except Fault Scan :=
  match s.key with
  | some k => if k.required then .error (s.colonFault k) else .ok { s with key := none }
  | none => .ok s

/-- Notes that a key may begin at the cursor. -/
def saveKey (s : Scan) : Except Fault Scan :=
  if s.keyAllowed then
    let key : PendingKey :=
      { required := !s.inFlow && s.indent == s.mark.column
        number := s.taken + s.queue.length, mark := s.mark }
    s.dropKey.map fun s => { s with key := some key }
  else .ok s

/-! ### Indentation -/

/-- Closes the blocks that are indented further than a column. -/
def unroll (s : Scan) (column : Int) : Scan :=
  if s.inFlow then s
  else
    let rec close (indent : Int) : List Int → Nat × Int × List Int
      | [] => (0, indent, [])
      | i :: is =>
        if column < indent then
          let (n, indent, is) := close i is
          (n + 1, indent, is)
        else (0, indent, i :: is)
    let (n, indent, indents) := close s.indent s.indents
    { s with
      queue := s.queue ++ List.replicate n ⟨.blockEnd, s.mark, s.mark⟩, indent, indents }

/-- Opens a block at a column that is indented further than the one around it. Its token goes
behind all others, or in the place of the one with a number. -/
def roll (s : Scan) (m : Mark) (number : Option Nat) (word : Word) : Scan :=
  if s.inFlow || m.column ≤ s.indent then s
  else
    let s := { s with indents := s.indent :: s.indents, indent := m.column }
    match number with
    | some n => s.insertAt n ⟨word, m, m⟩
    | none => s.push ⟨word, m, m⟩

/-! ### Indicators -/

/-- Takes an indicator of some characters as a token. -/
def indicator (s : Scan) (word : Word) (n : Nat) : Scan :=
  let after := s.cursor.skip n
  { s.push ⟨word, s.mark, after.mark⟩ with cursor := after }

/-- The end of the text. -/
def fetchEnd (s : Scan) : Except Fault Scan := do
  let m := s.mark
  let m := if m.column = 0 then m else { m with column := 0, line := m.line + 1 }
  let s := { s with cursor := { s.cursor with mark := m } }
  let s ← (s.unroll (-1)).dropKey
  return { s with keyAllowed := false }.push ⟨.streamEnd, m, m⟩

/-- A line that belongs to no node. -/
def fetchDirective (s : Scan) : Except Fault Scan := do
  let s ← (s.unroll (-1)).dropKey
  let (t, c) ← readDirective s.cursor
  return { s with keyAllowed := false, cursor := c }.push t

/-- The mark at the beginning or the end of a document. -/
def fetchDocumentMark (s : Scan) (word : Word) : Except Fault Scan := do
  let s ← (s.unroll (-1)).dropKey
  return { s with keyAllowed := false }.indicator word 3

/-- An opening bracket or brace. -/
def fetchFlowStart (s : Scan) (word : Word) : Except Fault Scan := do
  let s ← s.saveKey
  return { s with outer := s.key :: s.outer, key := none, keyAllowed := true }.indicator word 1

/-- A closing bracket or brace. -/
def fetchFlowEnd (s : Scan) (word : Word) : Except Fault Scan := do
  let s ← s.dropKey
  let s :=
    match s.outer with
    | [] => s
    | key :: outer => { s with key, outer }
  return { s with keyAllowed := false }.indicator word 1

/-- A comma. -/
def fetchFlowEntry (s : Scan) : Except Fault Scan := do
  let s ← s.dropKey
  return { s with keyAllowed := true }.indicator .flowEntry 1

/-- A dash. -/
def fetchBlockEntry (s : Scan) : Except Fault Scan := do
  if !s.inFlow && !s.keyAllowed then
    throw { problem := .blockEntryNotAllowed, mark := s.mark }
  let s ← (s.roll s.mark none .blockSequenceStart).dropKey
  return { s with keyAllowed := true }.indicator .blockEntry 1

/-- A question mark. -/
def fetchKey (s : Scan) : Except Fault Scan := do
  if !s.inFlow && !s.keyAllowed then throw { problem := .keyNotAllowed, mark := s.mark }
  let s ← (s.roll s.mark none .blockMappingStart).dropKey
  return { s with keyAllowed := !s.inFlow }.indicator .key 1

/-- A colon. It makes a key of what began at the pending key. -/
def fetchValue (s : Scan) : Except Fault Scan := do
  match s.key with
  | some k =>
    let s := s.insertAt k.number ⟨.key, k.mark, k.mark⟩
    let s := s.roll k.mark (some k.number) .blockMappingStart
    return { s with key := none, keyAllowed := false }.indicator .value 1
  | none =>
    if !s.inFlow && !s.keyAllowed then throw { problem := .valueNotAllowed, mark := s.mark }
    let s := s.roll s.mark none .blockMappingStart
    return { s with keyAllowed := !s.inFlow }.indicator .value 1

/-! ### Nodes -/

/-- A token that may begin a key. -/
def fetchProperty (s : Scan) (read : Cursor → Except Fault (Token × Cursor)) :
    Except Fault Scan := do
  let s ← s.saveKey
  let (t, c) ← read s.cursor
  return { s with keyAllowed := false, cursor := c }.push t

/-- A scalar in a block of its own. -/
def fetchBlockScalar (s : Scan) (literal : Bool) : Except Fault Scan := do
  let s ← s.dropKey
  let (t, c) ← readBlock literal s.indent s.cursor
  return { s with keyAllowed := true, cursor := c }.push t

/-- A scalar without quotes. A key may begin on the line behind it. -/
def fetchPlain (s : Scan) : Except Fault Scan := do
  let s ← s.saveKey
  let (t, broken, c) ← readPlain s.inFlow s.indent s.cursor
  return { s with keyAllowed := broken, cursor := c }.push t

/-! ### The next token -/

/-- Past blanks, comments and line breaks; and whether a line break outside brackets and braces was
passed. Each line takes a character, which bounds the fuel. -/
def toNextToken (inFlow : Bool) : Nat → Bool → Cursor → Bool × Cursor
  | 0, keyAllowed, c => (keyAllowed, c)
  | fuel + 1, keyAllowed, c =>
    let c := if c.mark.column == 0 && c.sees '\ufeff' then c.skip 1 else c
    let c := c.skipWhile fun x => x == ' ' || ((inFlow || !keyAllowed) && x == '\t')
    let c := if c.sees '#' then c.skipLine else c
    match c.readBreak? with
    | some (_, c) => toNextToken inFlow fuel (keyAllowed || !inFlow) c
    | none => (keyAllowed, c)

/-- Whether a plain scalar may begin with a character that another one follows. -/
def beginsPlain (inFlow : Bool) (x : Char) (next : Option Char) : Bool :=
  let isBlankNext := next.any isBlank
  let isEnd := next.all fun y => isBlank y || isBreak y
  (!(isBlank x || isBreak x) && !("-?:,[]\x7b\x7d#&*!|>'\"%@`".toList.contains x))
    || (x == '-' && !isBlankNext)
    || (!inFlow && (x == '?' || x == ':') && !isEnd)

/-- Takes what begins at the cursor, which is at no blank. -/
def dispatch (s : Scan) : Except Fault Scan :=
  let c := s.cursor
  match c.rest with
  | [] => s.fetchEnd
  | x :: rest =>
    let atStart := c.mark.column == 0
    let isBare := s.inFlow || c.blankAfter 1
    if atStart && x == '%' then s.fetchDirective
    else if c.atDocumentMark '-' then s.fetchDocumentMark .documentStart
    else if c.atDocumentMark '.' then s.fetchDocumentMark .documentEnd
    else if x == '[' then s.fetchFlowStart .flowSequenceStart
    else if x == '\x7b' then s.fetchFlowStart .flowMappingStart
    else if x == ']' then s.fetchFlowEnd .flowSequenceEnd
    else if x == '\x7d' then s.fetchFlowEnd .flowMappingEnd
    else if x == ',' then s.fetchFlowEntry
    else if x == '-' && c.blankAfter 1 then s.fetchBlockEntry
    else if x == '?' && isBare then s.fetchKey
    else if x == ':' && isBare then s.fetchValue
    else if x == '*' then s.fetchProperty (readAnchor true)
    else if x == '&' then s.fetchProperty (readAnchor false)
    else if x == '!' then s.fetchProperty (readTag s.inFlow)
    else if x == '|' && !s.inFlow then s.fetchBlockScalar true
    else if x == '>' && !s.inFlow then s.fetchBlockScalar false
    else if x == '\'' then s.fetchProperty (readQuoted true)
    else if x == '"' then s.fetchProperty (readQuoted false)
    else if beginsPlain s.inFlow x rest.head? then s.fetchPlain
    else .error (.within .nextToken s.mark .cannotStartToken s.mark)

/-- Takes the next token, with all that its indentation closes before it. -/
def fetch (s : Scan) : Except Fault Scan := do
  let (keyAllowed, c) := toNextToken s.inFlow (s.cursor.rest.length + 1) s.keyAllowed s.cursor
  let s ← { s with keyAllowed, cursor := c }.dropStale
  (s.unroll s.mark.column).dispatch

/-- Whether the first token is held back by a pending key. -/
def isHeld (s : Scan) : Bool :=
  (s.key :: s.outer).any fun k => k.any (·.number == s.taken)

/-- Takes tokens until the first one is not held back. Each takes a character or is the last one,
which bounds the fuel. -/
def fetchMore : Nat → Scan → Except Fault Scan
  | 0, s => .ok s
  | fuel + 1, s => do
    let s ← if s.queue.isEmpty then pure s else s.dropStale
    if s.queue.isEmpty || s.isHeld then fetchMore fuel (← s.fetch) else return s

/-- The tokens from a place on, and the fault that ends them. -/
def tokensFrom : Nat → Scan → List Token × Option Fault
  | 0, _ => ([], none)
  | fuel + 1, s =>
    match fetchMore (s.cursor.rest.length + 3) s with
    | .error f => ([], some f)
    | .ok s =>
      match s.queue with
      | [] => ([], none)
      | t :: queue =>
        if t.word = .streamEnd then ([t], none)
        else
          let (ts, fault) := tokensFrom fuel { s with queue, taken := s.taken + 1 }
          (t :: ts, fault)

end Scan

/-- The offset in octets of the first character that no text may hold. -/
def controlOffset? (offset : Nat) : List Char → Option Nat
  | [] => none
  | c :: rest => if isAllowed c then controlOffset? (offset + c.utf8Size) rest else some offset

/-- The tokens of a text, and the fault that ends them. A character gives rise to five tokens at
most, which bounds the fuel. -/
def tokens (text : List Char) : List Token × Option Fault :=
  match controlOffset? 0 text with
  | some offset => ([], some { problem := .controlCharacter, offset })
  | none =>
    let start : Token := ⟨.streamStart, {}, {}⟩
    Scan.tokensFrom (5 * text.length + 10) { cursor := ⟨text, {}⟩, queue := [start] }

end Depot.Yaml
