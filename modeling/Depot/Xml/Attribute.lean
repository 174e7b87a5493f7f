import Depot.Xml.Event

/-!
# The attributes of a tag

`attributes` reads them up to the first that is malformed or has the key of an earlier one. Their
values stay as they are written. An attribute can bind a prefix to a name space; `resolve?` finds
the name space of a prefix among such bindings.
-/

namespace Depot.Xml

/-- A key and its value as written. -/
structure Attribute where
  key : List Char
  value : List Char
  deriving DecidableEq, Repr

/-- The number of octets of a text. -/
def octets (cs : List Char) : Nat :=
  (String.ofList cs).utf8ByteSize

/-! ### Reading -/

/-- The value after an equals sign, with the text that follows it. -/
def readValue (size : Nat) (cs : List Char) : Except AttributeFault (List Char × List Char) :=
  match cs.dropWhile isSpace with
  | [] => .error (.expectedValue size)
  | q :: rest =>
    if q = '"' ∨ q = '\'' then
      let value := rest.takeWhile (· != q)
      match rest.drop value.length with
      | _ :: rest => .ok (value, rest)
      | [] => .error (.unclosedQuote size q)
    else .error (.unquotedValue (size - octets (q :: rest)))

/-- The attributes in a part of a tag whose whole size in octets is given, after those with the keys
`seen`. Each attribute takes at least one character, which bounds the fuel. -/
def attributesFrom (size : Nat) :
    Nat → List (List Char × Nat) → List Char → List Attribute × Option AttributeFault
  | 0, _, _ => ([], none)
  | fuel + 1, seen, cs =>
    match cs.dropWhile isSpace with
    | [] => ([], none)
    | c :: cs =>
      let position := size - octets (c :: cs)
      let key := c :: cs.takeWhile fun c => c != '=' && !isSpace c
      match (cs.drop (key.length - 1)).dropWhile isSpace with
      | [] => ([], some (.expectedEquals size))
      | e :: rest =>
        if e ≠ '=' then ([], some (.expectedEquals (size - octets (e :: rest))))
        else
          match seen.lookup key with
          | some previous => ([], some (.duplicated position previous))
          | none =>
            match readValue size rest with
            | .error f => ([], some f)
            | .ok (value, rest) =>
              let (more, fault) := attributesFrom size fuel ((key, position) :: seen) rest
              (⟨key, value⟩ :: more, fault)

/-- The attributes of a tag, and what ended them early. -/
def attributes (tag : List Char) : List Attribute × Option AttributeFault :=
  attributesFrom (octets tag) tag.length [] (tag.drop (tagName tag).length)

/-! ### Name spaces -/

/-- The prefix of a name and what stands behind its colon. -/
def splitName (name : List Char) : Option (List Char) × List Char :=
  match splitAt? [':'] name with
  | some (before, after) => (some before, after)
  | none => (none, name)

/-- The name without its prefix. -/
def localName (name : List Char) : List Char :=
  (splitName name).2

/-- The prefixes that a tag binds, the last one first. -/
def bindings (tag : List Char) : List (List Char × List Char) :=
  ((attributes tag).1.filterMap fun a =>
    match splitName a.key with
    | (some p, bound) => if p = "xmlns".toList then some (bound, a.value) else none
    | (none, _) => none).reverse

/-- What is wrong with binding a prefix. -/
def bindingFault? (b : List Char × List Char) : Option BindingFault :=
  let bound := String.ofList b.1
  let value := String.ofList b.2
  if bound = "xml" then if value = xmlNamespace then none else some (.xmlToOther value)
  else if bound = "xmlns" then some (.xmlns value)
  else if value = xmlNamespace then some (.toXml bound)
  else if value = xmlnsNamespace then some (.toXmlns bound)
  else none

/-- What is wrong with the bindings of a tag. -/
def tagFault? (tag : List Char) : Option Fault :=
  ((bindings tag).reverse.findSome? bindingFault?).map Fault.binding

/-- The name of the name space of instances of a schema. -/
def instanceNamespace : String := "http://www.w3.org/2001/XMLSchema-instance"

/-- Whether a tag is marked as standing for nothing, given the prefixes bound around it and by
itself, the innermost first. -/
def isNil (bound : List (List Char × List Char)) (tag : List Char) : Bool :=
  (attributes tag).1.any fun a =>
    match splitName a.key with
    | (some p, key) =>
      key = "nil".toList && bound.lookup p = some instanceNamespace.toList
        && (a.value = "true".toList || a.value = "1".toList)
    | (none, _) => false

end Depot.Xml
