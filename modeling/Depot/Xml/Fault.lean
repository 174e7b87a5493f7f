import Depot.Text.Quoted

/-!
# What is wrong with an XML text

The faults that are found while an XML text is cut into markup, while the attributes of a tag and
the references of a text are read, and while a settings document is taken from it. `Fault.message`
words them.
-/

namespace Depot.Xml

/-- Why the number of a character reference is refused. -/
inductive NumberFault where
  | sign
  | empty
  | digit
  | tooLarge
  | noCharacter (code : Nat)
  | forbidden (code : Nat)
  deriving DecidableEq, Repr

/-- The wording of a refused number. -/
def NumberFault.message : NumberFault → String
  | .sign => "unexpected number sign"
  | .empty => "cannot parse integer from empty string"
  | .digit => "invalid digit found in string"
  | .tooLarge => "number too large to fit in target type"
  | .noCharacter code => s!"`{code}` is not a valid codepoint"
  | .forbidden code =>
    "0x" ++ String.ofList (Text.hexDigits code) ++ " character is not permitted in XML"

/-- Why an attribute is refused. Positions count octets from the start of the name of the tag. -/
inductive AttributeFault where
  | expectedEquals (position : Nat)
  | expectedValue (position : Nat)
  | unquotedValue (position : Nat)
  | unclosedQuote (position : Nat) (quote : Char)
  | duplicated (position previous : Nat)
  deriving DecidableEq, Repr

/-- The wording of a refused attribute. -/
def AttributeFault.message : AttributeFault → String
  | .expectedEquals p => s!"position {p}: attribute key must be directly followed by `=` or space"
  | .expectedValue p => s!"position {p}: `=` must be followed by an attribute value"
  | .unquotedValue p => s!"position {p}: attribute value must be enclosed in `\"` or `'`"
  | .unclosedQuote p quote => s!"position {p}: missing closing quote `{quote}` in attribute value"
  | .duplicated p previous =>
    s!"position {p}: duplicated attribute, previous declaration at position {previous}"

/-- The name of the name space that the prefix `xml` always stands for. -/
def xmlNamespace : String := "http://www.w3.org/XML/1998/namespace"

/-- The name of the name space that the prefix `xmlns` always stands for. -/
def xmlnsNamespace : String := "http://www.w3.org/2000/xmlns/"

/-- Why a prefix may not be bound to a name space. -/
inductive BindingFault where
  | xmlToOther (namespaceName : String)
  | xmlns (namespaceName : String)
  | toXml (boundPrefix : String)
  | toXmlns (boundPrefix : String)
  deriving DecidableEq, Repr

/-- What an XML text lacks, or has too much. -/
inductive Fault where
  | invalidBang
  | unclosedInstruction
  | unclosedDeclaration
  | unclosedComment
  | unclosedDoctype
  | unclosedCData
  | unclosedTag
  | unclosedQuote (quote : Char)
  | missingDoctypeName
  | missingEnd (name : String)
  | unmatchedEnd (name : String)
  | mismatchedEnd (expected found : String)
  | unclosedReference
  | unknownEntity (name : String)
  | number (fault : NumberFault)
  | attribute (fault : AttributeFault)
  | binding (fault : BindingFault)
  | unexpectedStart (name : String)
  | unexpectedEnd
  | notADocument (text : String)
  | duplicateField (name : String)
  deriving DecidableEq, Repr

/-- A number as two upper case hexadecimal digits at least, behind `0x`. -/
def octetText (b : UInt8) : String :=
  "0x" ++ String.ofList ((Nat.toDigits 16 b.toNat).map Char.toUpper)

/-- The octets of a text: visible ASCII characters as they are, others by their number. -/
def octetsText (s : String) : String :=
  let octet (b : UInt8) : String :=
    if b.toNat = 34 then "\\\""
    else if 32 ≤ b.toNat && b.toNat ≤ 126 then String.singleton (Char.ofNat b.toNat)
    else octetText b
  "\"" ++ String.join (s.toUTF8.data.toList.map octet) ++ "\""

/-- The wording of a refused binding. -/
def BindingFault.message : BindingFault → String
  | .xmlToOther n => s!"the namespace prefix 'xml' cannot be bound to '{octetsText n}'"
  | .xmlns n => s!"the namespace prefix 'xmlns' cannot be bound to '{octetsText n}'"
  | .toXml p => s!"the namespace prefix '{octetsText p}' cannot be bound to '{xmlNamespace}'"
  | .toXmlns p => s!"the namespace prefix '{octetsText p}' cannot be bound to '{xmlnsNamespace}'"

/-- A construct that the text ends before closing. -/
private def notClosed (what closing : String) : String :=
  s!"{what} not closed: `{closing}` not found before end of input"

/-- The wording of a fault. -/
def Fault.message : Fault → String
  | .invalidBang => "syntax error: unknown or missed symbol in markup"
  | .unclosedInstruction => "syntax error: " ++ notClosed "processing instruction" "?>"
  | .unclosedDeclaration => "syntax error: " ++ notClosed "XML declaration" "?>"
  | .unclosedComment => "syntax error: " ++ notClosed "comment" "-->"
  | .unclosedDoctype => "syntax error: " ++ notClosed "DOCTYPE" ">"
  | .unclosedCData => "syntax error: " ++ notClosed "CDATA" "]]>"
  | .unclosedTag => "syntax error: " ++ notClosed "tag" ">"
  | .unclosedQuote quote => "syntax error: " ++ notClosed "attribute value" (String.singleton quote)
  | .missingDoctypeName =>
    "ill-formed document: `<!DOCTYPE>` declaration does not contain a name of a document type"
  | .missingEnd name => "ill-formed document: " ++ notClosed "start tag" s!"</{name}>"
  | .unmatchedEnd name => s!"ill-formed document: close tag `</{name}>` does not match any open tag"
  | .mismatchedEnd expected found =>
    s!"ill-formed document: expected `</{expected}>`, but `</{found}>` was found"
  | .unclosedReference =>
    "ill-formed document: " ++ notClosed "entity or character reference" ";"
  | .unknownEntity name => s!"at 0..{name.utf8ByteSize}: unrecognized entity `{name}`"
  | .number fault => s!"invalid character reference: {fault.message}"
  | .attribute fault => s!"error while parsing attribute: {fault.message}"
  | .binding fault => fault.message
  | .unexpectedStart name => s!"unexpected `Event::Start({octetsText name})`"
  | .unexpectedEnd => "unexpected `Event::Eof`"
  | .notADocument text => s!"invalid type: string {Text.quote text}, expected struct MavenSettings"
  | .duplicateField name => s!"duplicate field `{name}`"

end Depot.Xml
