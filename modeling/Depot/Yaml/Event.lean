import Depot.Yaml.Token.Stream

/-!
# Events

The structure of a YAML text in the order of its reading: nodes, the starts and ends of collections
and of documents. `eventsOf` turns tokens into events, up to the first fault. What has to come next
is a stack of states, one for each collection that is open.
-/

namespace Depot.Yaml

/-- A piece of the structure of a text. -/
inductive Item where
  | documentStart
  | documentEnd
  | streamEnd
  | alias (name : List Char)
  | scalar (anchor : Option (List Char)) (tag : Option Tag) (text : List Char) (plain : Bool)
  | sequenceStart (anchor : Option (List Char)) (tag : Option Tag)
  | sequenceEnd
  | mappingStart (anchor : Option (List Char)) (tag : Option Tag)
  | mappingEnd
  deriving DecidableEq, Repr

/-- A piece of structure with the mark where it starts. -/
structure Event where
  item : Item
  mark : Mark
  deriving DecidableEq, Repr

/-- What has to come next. -/
inductive Expect where
  | document (first : Bool)
  | documentContent
  | documentEnd
  | blockNode
  | blockEntry (first : Bool) (start : Mark)
  | indentlessEntry
  | blockKey (first : Bool) (start : Mark)
  | blockValue (start : Mark)
  | flowEntry (first : Bool) (start : Mark)
  | pairKey
  | pairValue
  | pairEnd
  | flowKey (first : Bool) (start : Mark)
  | flowValue (empty : Bool)
  | done
  deriving DecidableEq, Repr

/-- The tokens to come, what has to come next and later, and how tags are abbreviated. -/
structure Parse where
  tokens : List Token
  state : Expect := .document true
  later : List Expect := []
  handles : List (List Char × Tag) := []

namespace Parse

/-- What a step gives: an event and what is left, a fault, or no answer for want of tokens. -/
inductive Step where
  | event (e : Event) (p : Parse)
  | fault (f : Fault)
  | starved

/-- The state with the next token taken. -/
def advance (p : Parse) : Parse :=
  { p with tokens := p.tokens.tail }

/-- Goes back to what was expected around the node that was just finished. -/
def pop (p : Parse) : Parse :=
  match p.later with
  | [] => { p with state := .done }
  | s :: later => { p with state := s, later }

/-- Expects something after the node that comes next. -/
def pushed (p : Parse) (s : Expect) : Parse :=
  { p with later := s :: p.later }

/-- Expects something next. -/
def expecting (p : Parse) (s : Expect) : Parse :=
  { p with state := s }

/-- Looks at the next token. -/
def look (p : Parse) (k : Token → Step) : Step :=
  match p.tokens with
  | [] => .starved
  | t :: _ => k t

/-- A scalar for a node that was left out. -/
def emptyScalar (p : Parse) (m : Mark) : Step :=
  .event ⟨.scalar none none [] true, m⟩ p

/-! ### Nodes -/

/-- What stands before the content of a node. -/
structure Properties where
  start : Mark
  anchor : Option (List Char) := none
  tag : Option (Mark × List Char × Tag) := none

/-- The properties at the front of some tokens, in either order, and the tokens behind them. -/
def readProperties (start : Mark) : List Token → Properties × List Token
  | ⟨.anchor a, m, _⟩ :: ⟨.tag h s, m', _⟩ :: ts => (⟨m, some a, some (m', h, s)⟩, ts)
  | ⟨.tag h s, m, _⟩ :: ⟨.anchor a, _, _⟩ :: ts => (⟨m, some a, some (m, h, s)⟩, ts)
  | ⟨.anchor a, m, _⟩ :: ts => (⟨m, some a, none⟩, ts)
  | ⟨.tag h s, m, _⟩ :: ts => (⟨m, none, some (m, h, s)⟩, ts)
  | ts => (⟨start, none, none⟩, ts)

/-- The tag that a handle and a suffix stand for. -/
def resolveTag (p : Parse) (start : Mark) :
    Option (Mark × List Char × Tag) → Except Fault (Option Tag)
  | none => .ok none
  | some (_, [], suffix) => .ok (some suffix)
  | some (m, handle, suffix) =>
    match p.handles.lookup handle with
    | some lead => .ok (some (lead ++ suffix))
    | none => .error (.within .node start .undefinedHandle m)

/-- A node, in the block style or not; `indentless` where a sequence need not be indented. -/
def node (p : Parse) (block indentless : Bool) : Step :=
  p.look fun t =>
    match t.word with
    | .alias name => .event ⟨.alias name, t.start⟩ p.advance.pop
    | _ =>
      let (own, ts) := readProperties t.start p.tokens
      let p := { p with tokens := ts }
      p.look fun t =>
        match p.resolveTag own.start own.tag with
        | .error f => .fault f
        | .ok tag =>
          let open' (item : Item) (s : Expect) : Step := .event ⟨item, own.start⟩ (p.expecting s)
          match t.word with
          | .scalar text plain =>
            .event ⟨.scalar own.anchor tag text plain, own.start⟩ p.advance.pop
          | .flowSequenceStart => open' (.sequenceStart own.anchor tag) (.flowEntry true t.start)
          | .flowMappingStart => open' (.mappingStart own.anchor tag) (.flowKey true t.start)
          | word =>
            if indentless && word == .blockEntry then
              open' (.sequenceStart own.anchor tag) .indentlessEntry
            else if block && word == .blockSequenceStart then
              open' (.sequenceStart own.anchor tag) (.blockEntry true t.start)
            else if block && word == .blockMappingStart then
              open' (.mappingStart own.anchor tag) (.blockKey true t.start)
            else if own.anchor.isSome || own.tag.isSome then
              .event ⟨.scalar own.anchor tag [] true, own.start⟩ p.pop
            else
              .fault (.within (if block then .blockNode else .flowNode) own.start .missingNode
                t.start)

/-- A node, unless one of some tokens shows that it was left out at a mark. -/
def nodeUnless (p : Parse) (absent : List Word) (block indentless : Bool) (m : Mark)
    (after : Expect) : Step :=
  p.look fun t =>
    if absent.contains t.word then (p.expecting after).emptyScalar m
    else (p.pushed after).node block indentless

/-! ### Documents -/

/-- How tags are abbreviated unless a directive says otherwise. -/
def defaultHandles : List (List Char × Tag) :=
  [(['!'], Tag.ofChars ['!']), (['!', '!'], Tag.ofChars "tag:yaml.org,2002:".toList)]

/-- The directives at the front of some tokens: the handles that they declare after those in
`handles`, and the tokens behind them. -/
def readDirectives (versioned : Bool) (handles : List (List Char × Tag)) :
    List Token → Except Fault (List (List Char × Tag) × List Token)
  | ⟨.versionDirective major minor, m, _⟩ :: ts =>
    if versioned then .error { problem := .duplicateVersion, mark := m }
    else if major ≠ 1 ∨ (minor ≠ 1 ∧ minor ≠ 2) then .error { problem := .incompatible, mark := m }
    else readDirectives true handles ts
  | ⟨.tagDirective handle lead, m, _⟩ :: ts =>
    if (handles.lookup handle).isSome then .error { problem := .duplicateHandle, mark := m }
    else readDirectives versioned (handles ++ [(handle, lead)]) ts
  | ts => .ok (handles, ts)

/-- The start of a document with directives or a mark of its own. -/
def explicitDocument (p : Parse) (start : Mark) : Step :=
  match readDirectives false [] p.tokens with
  | .error f => .fault f
  | .ok (handles, ts) =>
    let p := { p with tokens := ts, handles := handles ++ defaultHandles }
    p.look fun t =>
      if t.word = .documentStart then
        .event ⟨.documentStart, start⟩ ((p.advance.pushed .documentEnd).expecting .documentContent)
      else .fault { problem := .missingDocumentStart, mark := t.start }

/-- The start of a document, or the end of the stream. -/
def document (p : Parse) (first : Bool) : Step :=
  let p := if first then p else { p with tokens := p.tokens.dropWhile (·.word == .documentEnd) }
  p.look fun t =>
    match t.word with
    | .streamEnd => .event ⟨.streamEnd, t.start⟩ (p.advance.expecting .done)
    | .versionDirective .. | .tagDirective .. | .documentStart => p.explicitDocument t.start
    | _ =>
      if first then
        .event ⟨.documentStart, t.start⟩
          (({ p with handles := defaultHandles }.pushed .documentEnd).expecting .blockNode)
      else p.explicitDocument t.start

/-- The content of a document after its mark. -/
def documentContent (p : Parse) : Step :=
  p.look fun t =>
    match t.word with
    | .versionDirective .. | .tagDirective .. | .documentStart | .documentEnd | .streamEnd =>
      p.pop.emptyScalar t.start
    | _ => p.node true false

/-- The end of a document. -/
def documentEnd (p : Parse) : Step :=
  p.look fun t =>
    let p := if t.word = .documentEnd then p.advance else p
    .event ⟨.documentEnd, t.start⟩ { p with handles := [], state := .document false }

/-! ### Collections -/

/-- An entry of an indented sequence. -/
def blockEntry (p : Parse) (start : Mark) : Step :=
  p.look fun t =>
    match t.word with
    | .blockEntry =>
      p.advance.nodeUnless [.blockEntry, .blockEnd] true false t.stop (.blockEntry false start)
    | .blockEnd => .event ⟨.sequenceEnd, t.start⟩ p.advance.pop
    | _ => .fault (.within .blockSequence start .missingDash t.start)

/-- An entry of a sequence that is not indented. -/
def indentlessEntry (p : Parse) : Step :=
  p.look fun t =>
    match t.word with
    | .blockEntry =>
      p.advance.nodeUnless [.blockEntry, .key, .value, .blockEnd] true false t.stop .indentlessEntry
    | _ => .event ⟨.sequenceEnd, t.start⟩ p.pop

/-- A key of a block mapping. -/
def blockKey (p : Parse) (start : Mark) : Step :=
  p.look fun t =>
    match t.word with
    | .key => p.advance.nodeUnless [.key, .value, .blockEnd] true true t.stop (.blockValue start)
    | .blockEnd => .event ⟨.mappingEnd, t.start⟩ p.advance.pop
    | _ => .fault (.within .blockMapping start .missingKey t.start)

/-- A value of a block mapping. -/
def blockValue (p : Parse) (start : Mark) : Step :=
  p.look fun t =>
    match t.word with
    | .value =>
      p.advance.nodeUnless [.key, .value, .blockEnd] true true t.stop (.blockKey false start)
    | _ => (p.expecting (.blockKey false start)).emptyScalar t.start

/-- Goes past the comma between two entries, unless this is the first one or the end. -/
def afterComma (p : Parse) (first : Bool) (close : Word) (missing : Mark → Fault)
    (k : Parse → Step) : Step :=
  p.look fun t =>
    if first || t.word = close then k p
    else if t.word = .flowEntry then k p.advance
    else .fault (missing t.start)

/-- An entry between brackets. -/
def flowEntry (p : Parse) (first : Bool) (start : Mark) : Step :=
  p.afterComma first .flowSequenceEnd (.within .flowSequence start .missingSequenceComma) fun p =>
    p.look fun t =>
      match t.word with
      | .flowSequenceEnd => .event ⟨.sequenceEnd, t.start⟩ p.advance.pop
      | .key =>
        .event ⟨.mappingStart none none, t.start⟩
          ((p.advance.pushed (.flowEntry false start)).expecting .pairKey)
      | _ => (p.pushed (.flowEntry false start)).node false false

/-- The key of a single pair between brackets. -/
def pairKey (p : Parse) : Step :=
  p.look fun t =>
    match t.word with
    | .value | .flowEntry | .flowSequenceEnd => (p.advance.expecting .pairValue).emptyScalar t.stop
    | _ => (p.pushed .pairValue).node false false

/-- The value of a single pair between brackets. -/
def pairValue (p : Parse) : Step :=
  p.look fun t =>
    match t.word with
    | .value =>
      let p := p.advance
      p.look fun t => p.nodeUnless [.flowEntry, .flowSequenceEnd] false false t.start .pairEnd
    | _ => (p.expecting .pairEnd).emptyScalar t.start

/-- The end of a single pair between brackets. -/
def pairEnd (p : Parse) : Step :=
  p.look fun t => .event ⟨.mappingEnd, t.start⟩ p.pop

/-- A key between braces. -/
def flowKey (p : Parse) (first : Bool) (start : Mark) : Step :=
  p.afterComma first .flowMappingEnd (.within .flowMapping start .missingMappingComma) fun p =>
    p.look fun t =>
      match t.word with
      | .flowMappingEnd => .event ⟨.mappingEnd, t.start⟩ p.advance.pop
      | .key =>
        let p := (p.advance.pushed (.flowKey false start))
        p.look fun t =>
          p.nodeUnless [.value, .flowEntry, .flowMappingEnd] false false t.start (.flowValue false)
      | _ => ((p.pushed (.flowKey false start)).pushed (.flowValue true)).node false false

/-- A value between braces. -/
def flowValue (p : Parse) (empty : Bool) : Step :=
  p.look fun t =>
    match empty, t.word with
    | false, .value =>
      let p := p.advance
      p.look fun t =>
        if [Word.flowEntry, .flowMappingEnd].contains t.word then p.pop.emptyScalar t.start
        else p.node false false
    | _, _ => p.pop.emptyScalar t.start

/-! ### The events of a text -/

/-- One step. -/
def step (p : Parse) : Step :=
  match p.state with
  | .document first => p.document first
  | .documentContent => p.documentContent
  | .documentEnd => p.documentEnd
  | .blockNode => p.node true false
  | .blockEntry true start => p.advance.blockEntry start
  | .blockEntry false start => p.blockEntry start
  | .indentlessEntry => p.indentlessEntry
  | .blockKey true start => p.advance.blockKey start
  | .blockKey false start => p.blockKey start
  | .blockValue start => p.blockValue start
  | .flowEntry true start => p.advance.flowEntry true start
  | .flowEntry false start => p.flowEntry false start
  | .pairKey => p.pairKey
  | .pairValue => p.pairValue
  | .pairEnd => p.pairEnd
  | .flowKey true start => p.advance.flowKey true start
  | .flowKey false start => p.flowKey false start
  | .flowValue empty => p.flowValue empty
  | .done => .starved

/-- The events from a state on, and the fault that ends them; for want of tokens that is the fault
that ended those. -/
def eventsFrom (ended : Option Fault) : Nat → Parse → List Event × Option Fault
  | 0, _ => ([], ended)
  | fuel + 1, p =>
    match p.step with
    | .starved => ([], if p.state = .done then none else ended)
    | .fault f => ([], some f)
    | .event e p =>
      let (es, fault) := eventsFrom ended fuel p
      (e :: es, fault)

end Parse

/-- The events of a text, and the fault that ends them. A token gives rise to four events at most,
which bounds the fuel. -/
def events (text : List Char) : List Event × Option Fault :=
  match tokens text with
  | (_ :: ts, ended) => Parse.eventsFrom ended (4 * ts.length + 10) { tokens := ts }
  | ([], ended) => ([], ended)

end Depot.Yaml
