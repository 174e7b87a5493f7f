import Depot.Yaml.Mark

/-!
# What is wrong with a YAML text

A fault is a problem at a mark, with what was being read there and where that began. A character
that no YAML text may hold is found before any mark is known; it is placed by its offset in octets.
-/

namespace Depot.Yaml

/-- What was found, or was not. -/
inductive Problem where
  | controlCharacter
  | missingColon
  | blockEntryNotAllowed
  | keyNotAllowed
  | valueNotAllowed
  | cannotStartToken
  | missingDirectiveName
  | nonAlphabetical
  | unknownDirective
  | missingLineBreak
  | missingDot
  | longVersion
  | missingVersion
  | missingBlank
  | missingBlankOrBreak
  | missingName
  | missingAngle
  | missingBang
  | missingUri
  | missingUriOctet
  | wrongLeadingOctet
  | wrongTrailingOctet
  | zeroIndentation
  | tabForIndentation
  | documentMark
  | endOfStream
  | unknownEscape
  | missingHexDigit
  | wrongCodePoint
  | unexpectedColon
  | tabViolatesIndentation
  | missingDocumentStart
  | undefinedHandle
  | missingNode
  | missingDash
  | missingKey
  | missingSequenceComma
  | missingMappingComma
  | duplicateVersion
  | incompatible
  | duplicateHandle
  deriving DecidableEq, Repr

/-- The wording of a problem. -/
def Problem.text : Problem → String
  | .controlCharacter => "control characters are not allowed"
  | .missingColon => "could not find expected ':'"
  | .blockEntryNotAllowed => "block sequence entries are not allowed in this context"
  | .keyNotAllowed => "mapping keys are not allowed in this context"
  | .valueNotAllowed => "mapping values are not allowed in this context"
  | .cannotStartToken => "found character that cannot start any token"
  | .missingDirectiveName => "could not find expected directive name"
  | .nonAlphabetical => "found unexpected non-alphabetical character"
  | .unknownDirective => "found unknown directive name"
  | .missingLineBreak => "did not find expected comment or line break"
  | .missingDot => "did not find expected digit or '.' character"
  | .longVersion => "found extremely long version number"
  | .missingVersion => "did not find expected version number"
  | .missingBlank => "did not find expected whitespace"
  | .missingBlankOrBreak => "did not find expected whitespace or line break"
  | .missingName => "did not find expected alphabetic or numeric character"
  | .missingAngle => "did not find the expected '>'"
  | .missingBang => "did not find expected '!'"
  | .missingUri => "did not find expected tag URI"
  | .missingUriOctet => "did not find URI escaped octet"
  | .wrongLeadingOctet => "found an incorrect leading UTF-8 octet"
  | .wrongTrailingOctet => "found an incorrect trailing UTF-8 octet"
  | .zeroIndentation => "found an indentation indicator equal to 0"
  | .tabForIndentation => "found a tab character where an indentation space is expected"
  | .documentMark => "found unexpected document indicator"
  | .endOfStream => "found unexpected end of stream"
  | .unknownEscape => "found unknown escape character"
  | .missingHexDigit => "did not find expected hexdecimal number"
  | .wrongCodePoint => "found invalid Unicode character escape code"
  | .unexpectedColon => "found unexpected ':'"
  | .tabViolatesIndentation => "found a tab character that violates indentation"
  | .missingDocumentStart => "did not find expected <document start>"
  | .undefinedHandle => "found undefined tag handle"
  | .missingNode => "did not find expected node content"
  | .missingDash => "did not find expected '-' indicator"
  | .missingKey => "did not find expected key"
  | .missingSequenceComma => "did not find expected ',' or ']'"
  | .missingMappingComma => "did not find expected ',' or '\x7d'"
  | .duplicateVersion => "found duplicate %YAML directive"
  | .incompatible => "found incompatible YAML document"
  | .duplicateHandle => "found duplicate %TAG directive"

/-- What was being read. -/
inductive Context where
  | simpleKey
  | nextToken
  | directive
  | versionDirective
  | tagDirective
  | anchor
  | alias
  | tag
  | handle
  | handleEnd
  | uri
  | directiveUri
  | blockScalar
  | quotedScalar
  | quotedEscape
  | plainScalar
  | node
  | blockNode
  | flowNode
  | blockSequence
  | blockMapping
  | flowSequence
  | flowMapping
  deriving DecidableEq, Repr

/-- The wording of what was being read. -/
def Context.text : Context → String
  | .simpleKey => "while scanning a simple key"
  | .nextToken => "while scanning for the next token"
  | .directive => "while scanning a directive"
  | .versionDirective => "while scanning a %YAML directive"
  | .tagDirective => "while scanning a %TAG directive"
  | .anchor => "while scanning an anchor"
  | .alias => "while scanning an alias"
  | .tag => "while scanning a tag"
  | .handle => "while scanning a tag directive"
  | .handleEnd => "while parsing a tag directive"
  | .uri => "while parsing a tag"
  | .directiveUri => "while parsing a %TAG directive"
  | .blockScalar => "while scanning a block scalar"
  | .quotedScalar => "while scanning a quoted scalar"
  | .quotedEscape => "while parsing a quoted scalar"
  | .plainScalar => "while scanning a plain scalar"
  | .node => "while parsing a node"
  | .blockNode => "while parsing a block node"
  | .flowNode => "while parsing a flow node"
  | .blockSequence => "while parsing a block collection"
  | .blockMapping => "while parsing a block mapping"
  | .flowSequence => "while parsing a flow sequence"
  | .flowMapping => "while parsing a flow mapping"

/-- A problem at a mark. -/
structure Fault where
  problem : Problem
  mark : Mark := {}
  context : Option (Context × Mark) := none
  offset : Nat := 0
  deriving DecidableEq, Repr

namespace Fault

/-- A problem with what was being read, and where that began. -/
def within (context : Context) (start : Mark) (problem : Problem) (mark : Mark) : Fault :=
  { problem, mark, context := some (context, start) }

/-- The wording of a fault. The origin of the text is not worth telling, nor is a beginning that is
the place of the problem itself. -/
def message (f : Fault) : String :=
  let place :=
    if !f.mark.isOrigin then s!" at {f.mark.text}"
    else if f.offset ≠ 0 then s!" at position {f.offset}"
    else ""
  let around :=
    match f.context with
    | none => ""
    | some (context, start) =>
      let same := start.line = f.mark.line ∧ start.column = f.mark.column
      s!", {context.text}" ++ if start.isOrigin ∨ same then "" else s!" at {start.text}"
  f.problem.text ++ place ++ around

end Fault

end Depot.Yaml
