import Depot.Xml.Fault

/-!
# The markup of an XML text

`events` cuts a text into tags, pieces of text and references. Comments, instructions, declarations
and document types leave nothing behind. Each end tag is checked against the start tag that it
closes, and the first fault ends the list.
-/

namespace Depot.Xml

/-- A piece of an XML text. -/
inductive Event where
  | start (tag : List Char)
  | stop
  | text (content : List Char)
  | cdata (content : List Char)
  | reference (name : List Char)
  | fault (f : Fault)
  deriving DecidableEq, Repr

/-- The four characters that XML takes for white space. -/
def isSpace (c : Char) : Bool :=
  c == ' ' || c == '\t' || c == '\n' || c == '\r'

/-- The name at the front of a tag. -/
def tagName (tag : List Char) : List Char :=
  tag.takeWhile fun c => !isSpace c

/-! ### Looking for an end -/

/-- What stands before a mark, and what stands after it. -/
def splitAt? (mark : List Char) : List Char → Option (List Char × List Char)
  | [] => if mark.isEmpty then some ([], []) else none
  | c :: rest =>
    if mark.isPrefixOf (c :: rest) then some ([], (c :: rest).drop mark.length)
    else (splitAt? mark rest).map fun (before, after) => (c :: before, after)

/-- The text after a mark that it begins with, whatever the case of its letters. -/
def dropMark? (mark : String) (cs : List Char) : Option (List Char) :=
  let n := mark.toList.length
  if (cs.take n).map Char.toUpper = mark.toList then some (cs.drop n) else none

/-- Where a tag ends: at an angle bracket outside quotes. -/
def splitTag (quote : Option Char) : List Char → Except Fault (List Char × List Char)
  | [] =>
    match quote with
    | none => .error .unclosedTag
    | some q => .error (.unclosedQuote q)
  | c :: rest =>
    if quote = none ∧ c = '>' then .ok ([], rest)
    else
      let quote :=
        if quote = some c then none
        else if quote = none ∧ (c = '\'' ∨ c = '"') then some c
        else quote
      (splitTag quote rest).map fun (before, after) => (c :: before, after)

/-- What the declarations of a document type are made of. -/
inductive Doctype where
  | outside
  | inside
  | declaration (quote : Option Char)
  | comment
  | instruction

/-- The text after a document type: it ends at an angle bracket outside its declarations. -/
def skipDoctype : Doctype → List Char → Option (List Char)
  | _, [] => none
  | .outside, '>' :: rest => some rest
  | .outside, '[' :: rest => skipDoctype .inside rest
  | .outside, _ :: rest => skipDoctype .outside rest
  | .inside, ']' :: rest => skipDoctype .outside rest
  | .inside, '<' :: '!' :: '-' :: '-' :: rest => skipDoctype .comment rest
  | .inside, '<' :: '?' :: rest => skipDoctype .instruction rest
  | .inside, '<' :: rest => skipDoctype (.declaration none) rest
  | .inside, _ :: rest => skipDoctype .inside rest
  | .comment, '-' :: '-' :: '>' :: rest => skipDoctype .inside rest
  | .comment, _ :: rest => skipDoctype .comment rest
  | .instruction, '?' :: '>' :: rest => skipDoctype .inside rest
  | .instruction, _ :: rest => skipDoctype .instruction rest
  | .declaration none, c :: rest =>
    if c = '>' then skipDoctype .inside rest
    else if c = '\'' ∨ c = '"' then skipDoctype (.declaration (some c)) rest
    else skipDoctype (.declaration none) rest
  | .declaration (some q), c :: rest =>
    skipDoctype (.declaration (if c = q then none else some q)) rest

/-! ### One piece -/

/-- What comes off the front of a text. -/
inductive Piece where
  | event (e : Event)
  | skipped
  | selfClosed (tag : List Char)
  | close (name : List Char)

/-- Markup that begins with an exclamation mark. -/
def readBang (cs : List Char) : Except Fault (Piece × List Char) :=
  match cs with
  | '-' :: _ =>
    match (dropMark? "--" cs).bind (splitAt? "-->".toList) with
    | some (_, rest) => .ok (.skipped, rest)
    | none => .error .unclosedComment
  | '[' :: _ =>
    match (dropMark? "[CDATA[" cs).bind (splitAt? "]]>".toList) with
    | some (content, rest) => .ok (.event (.cdata content), rest)
    | none => .error .unclosedCData
  | 'D' :: _ | 'd' :: _ =>
    match skipDoctype .outside cs, dropMark? "DOCTYPE" cs with
    | some rest, some (body : List Char) =>
      if (body.find? fun c => !isSpace c) = some '>' then .error .missingDoctypeName
      else .ok (.skipped, rest)
    | _, _ => .error .unclosedDoctype
  | _ => .error .invalidBang

/-- Whether an instruction is the declaration of the document. -/
def isDeclaration (cs : List Char) : Bool :=
  "xml".toList.isPrefixOf cs && ((cs.drop 3).head?.all isSpace)

/-- Markup that begins with a question mark. -/
def readInstruction (cs : List Char) : Except Fault (Piece × List Char) :=
  match splitAt? "?>".toList cs with
  | some (_, rest) =>
    if cs.head? = some '>' then .error .unclosedInstruction else .ok (.skipped, rest)
  | none => .error (if isDeclaration cs then .unclosedDeclaration else .unclosedInstruction)

/-- The text without the white space at its end; one that is nothing else is kept. -/
def trimName (cs : List Char) : List Char :=
  let trimmed := (cs.reverse.dropWhile isSpace).reverse
  if trimmed.isEmpty then cs else trimmed

/-- Markup after its opening angle bracket. -/
def readMarkup (cs : List Char) : Except Fault (Piece × List Char) :=
  match cs with
  | '!' :: rest => readBang rest
  | '?' :: rest => readInstruction rest
  | '/' :: rest =>
    (splitTag none rest).map fun (name, rest) => (.close (trimName name), rest)
  | cs =>
    match splitTag none cs with
    | .error f => .error f
    | .ok (tag, rest) =>
      if tag.getLast? = some '/' then .ok (.selfClosed tag.dropLast, rest)
      else .ok (.event (.start tag), rest)

/-- The piece at the front of a text. -/
def readPiece (cs : List Char) : Except Fault (Piece × List Char) :=
  match cs with
  | '<' :: rest => readMarkup rest
  | '&' :: rest =>
    let name := rest.takeWhile fun c => c != ';' && c != '&' && c != '<'
    match rest.drop name.length with
    | ';' :: rest => .ok (.event (.reference name), rest)
    | _ => .error .unclosedReference
  | cs =>
    let isText (c : Char) : Bool := c != '<' && c != '&'
    .ok (.event (.text (cs.takeWhile isText)), cs.dropWhile isText)

/-! ### The whole text -/

/-- Cuts a text whose open elements have the given names, the innermost first. Each piece takes at
least one character, which bounds the fuel. -/
def eventsFrom : Nat → List (List Char) → List Char → List Event
  | 0, _, _ | _, _, [] => []
  | fuel + 1, opened, c :: cs =>
    match readPiece (c :: cs) with
    | .error f => [.fault f]
    | .ok (.skipped, rest) => eventsFrom fuel opened rest
    | .ok (.selfClosed tag, rest) => .start tag :: .stop :: eventsFrom fuel opened rest
    | .ok (.event (.start tag), rest) =>
      .start tag :: eventsFrom fuel (tagName tag :: opened) rest
    | .ok (.event e, rest) => e :: eventsFrom fuel opened rest
    | .ok (.close name, rest) =>
      match opened with
      | [] => [.fault (.unmatchedEnd (String.ofList name))]
      | expected :: opened =>
        if name = expected then .stop :: eventsFrom fuel opened rest
        else [.fault (.mismatchedEnd (String.ofList expected) (String.ofList name))]

/-- The pieces of a text, without a byte order mark at its front. -/
def events (text : String) : List Event :=
  let cs := text.toList
  let cs := if cs.head? = some '\ufeff' then cs.tail else cs
  eventsFrom cs.length [] cs

end Depot.Xml
