import Depot.Json.Basic
import Depot.Yaml.Error

/-!
# Values in a document

What the nodes of a document stand for: texts, optional texts, JSON values and lists of them. An
alias stands for the node that it names; reading counts the aliases that it follows and refuses to
follow more than a hundred for each piece of the document, and it refuses to go deeper than a given
number of collections. Reaching the place where a document breaks off is an error of its own, so a
mismatch in front of that place is found first.
-/

namespace Depot.Yaml

/-- The error of a document that breaks off where more is needed. -/
def Document.cutError (d : Document) : Error :=
  match d.broken with
  | some b => .broken b
  | none => .endOfText

/-! ### Tags -/

/-- The tag of a core type. -/
def coreTag (name : String) : Tag :=
  Tag.ofChars ("tag:yaml.org,2002:" ++ name).toList

/-- Whether octets are the encoding of a text. -/
def isText (octets : List UInt8) : Bool :=
  (String.fromUTF8? ⟨octets.toArray⟩).isSome

/-- Whether a tag is local and thus names a variant. -/
def isVariant : Option Tag → Bool
  | some (first :: rest) => first == 0x21 && isText rest
  | _ => false

/-- Whether a tag is local. -/
def isLocal (tag : Tag) : Bool :=
  tag.head? == some 0x21

/-- What a scalar without a tag of a core type is found to be. -/
def foundPlain (text : String) : Found :=
  match Meaning.ofText text with
  | .string => .string text
  | m => .meaning m

/-- What a scalar is found to be. -/
def foundScalar (tag : Option Tag) (text : String) (plain : Bool) : Except Mismatch Found :=
  let cs := text.toList
  let known (m : Option Meaning) (expected : String) : Except Mismatch Found :=
    match m with
    | some m => .ok (.meaning m)
    | none => .error (.value text expected)
  match tag with
  | none => .ok (if plain then foundPlain text else .string text)
  | some tag =>
    if tag = coreTag "bool" then known ((Meaning.bool? text).map .bool) "a boolean"
    else if tag = coreTag "int" then known (Meaning.integer? cs) "an integer"
    else if tag = coreTag "float" then known ((Meaning.double? cs).map .double) "a float"
    else if tag = coreTag "null" then
      known (if Meaning.isNull text then some .null else none) "null"
    else .ok (if isLocal tag && plain then foundPlain text else .string text)

/-! ### Reading -/

/-- A reader of a node: given the way to the node and the number of aliases followed before, a value
and the number of aliases followed after. -/
abbrev Reader (α : Type) := Trail → Node → Nat → Except Error (α × Nat)

/-- The error of a node that is not what was expected. -/
def mismatch {α : Type} (m : Mismatch) (mark : Mark) (trail : Trail) : Except Error α :=
  .error (.mismatch m (some (mark, trail)))

/-- Follows an alias. -/
def Document.follow (d : Document) (trail : Trail) (n : Node) (jumps : Nat) :
    Except Error (Trail × Node × Nat) :=
  match n with
  | .alias _ number =>
    if 100 * d.size < jumps + 1 then .error .tooManyAliases
    else
      match d.anchored? number with
      | some n => .ok (.alias trail, n, jumps + 1)
      | none => .error d.cutError
  | n => .ok (trail, n, jumps)

/-- The text of a scalar, whatever its tag. -/
def Document.readText (d : Document) (expected : String) : Reader String := fun trail n jumps => do
  let (trail, n, jumps) ← d.follow trail n jumps
  match n with
  | .scalar _ _ text _ => return (text, jumps)
  | .sequence mark .. => mismatch (.kind .sequence expected) mark trail
  | .mapping mark .. => mismatch (.kind .mapping expected) mark trail
  | .alias .. => throw d.cutError

/-- Whether a node is a scalar that stands for nothing. The error has no place of its own. -/
def isAbsent : Node → Except Error Bool
  | .scalar _ tag text true =>
    if tag = some (coreTag "null") then
      if Meaning.isNull text then .ok true else .error (.mismatch (.value text "null") none)
    else .ok (tag.isNone && (text.isEmpty || Meaning.isNull text))
  | _ => .ok false

/-- The text of a scalar, or nothing. -/
def Document.readOptionalText (d : Document) (expected : String) : Reader (Option String) :=
  fun trail n jumps => do
    let (trail, n, jumps) ← d.follow trail n jumps
    if ← isAbsent n then return (none, jumps)
    else
      let (text, jumps) ← d.readText expected trail n jumps
      return (some text, jumps)

/-- The items of a sequence from an index on. -/
def readItems {α : Type} (cut : Option Error) (read : Reader α) (trail : Trail) (index : Nat) :
    List Node → Nat → Except Error (List α × Nat)
  | [], jumps =>
    match cut with
    | some e => .error e
    | none => .ok ([], jumps)
  | n :: rest, jumps => do
    let (v, jumps) ← read (.item trail index) n jumps
    let (vs, jumps) ← readItems cut read trail (index + 1) rest jumps
    return (v :: vs, jumps)

/-- The way to the value of a key. -/
def valueTrail (trail : Trail) : Node → Trail
  | .scalar _ _ text _ => .field trail text
  | _ => .unknown trail

/-- The fields of a mapping. The first key is expected in other words than the ones behind it. -/
def Document.readFields {α : Type} (d : Document) (cut : Option Error) (read : Reader α)
    (trail : Trail) (expected : String) :
    List Node → Nat → Except Error (List (String × α) × Nat)
  | [], jumps =>
    match cut with
    | some e => .error e
    | none => .ok ([], jumps)
  | [k], jumps => do
    let _ ← d.readText expected trail k jumps
    throw d.cutError
  | k :: v :: rest, jumps => do
    let (key, jumps) ← d.readText expected trail k jumps
    let (value, jumps) ← read (valueTrail trail k) v jumps
    let (fields, jumps) ← d.readFields cut read trail "a string" rest jumps
    return ((key, value) :: fields, jumps)

/-- What ends the children of a collection, if it is not its end. -/
def Document.cutOf (d : Document) (complete : Bool) : Option Error :=
  if complete then none else some d.cutError

/-- The value that was found in place of a scalar. -/
def Found.toJson : Found → Except Mismatch Json
  | .meaning .null => .ok .null
  | .meaning (.bool b) => .ok (.bool b)
  | .meaning (.integer i) => .ok (.ofInt i)
  | .meaning (.double d) => .ok (.ofBinary64 d)
  | .string s => .ok (.string s)
  | .meaning (.wide _) => .error .outOfRange
  | found => .error (.kind found "any valid JSON value")

/-- The value of a scalar, of the items of a sequence or of the fields of a mapping. -/
def Document.readJson (d : Document) : Nat → Reader Json
  | depth, trail, n, jumps => do
    let inside (mark : Mark) : Except Error (Reader Json) :=
      match depth with
      | 0 => .error (.tooDeep mark)
      | depth + 1 => .ok (d.readJson depth)
    let variant (mark : Mark) (trail : Trail) : Except Error (Json × Nat) :=
      mismatch (.kind .variant "any valid JSON value") mark trail
    let (trail, n, jumps) ← d.follow trail n jumps
    match n with
    | .alias .. => throw d.cutError
    | .scalar mark tag text plain =>
      if isVariant tag then variant mark trail
      else
        match (foundScalar tag text plain).bind Found.toJson with
        | .ok v => return (v, jumps)
        | .error m => mismatch m mark trail
    | .sequence mark tag children complete =>
      if isVariant tag then variant mark trail
      else
        let (items, jumps) ←
          readItems (d.cutOf complete) (← inside mark) trail 0 children jumps
        return (.array items, jumps)
    | .mapping mark tag children complete =>
      if isVariant tag then variant mark trail
      else
        let (fields, jumps) ←
          d.readFields (d.cutOf complete) (← inside mark) trail "a string key" children jumps
        return (Json.ofFields fields, jumps)

/-- Whether a node is a plain scalar without text. -/
def isBare : Node → Bool
  | .scalar _ _ text plain => plain && text.isEmpty
  | _ => false

/-- The error of a node in the place of a collection. -/
def notCollection {α : Type} (expected : String) (trail : Trail) (n : Node) : Except Error α :=
  match n with
  | .scalar mark tag text plain =>
    match foundScalar tag text plain with
    | .ok found => mismatch (.kind found expected) mark trail
    | .error m => mismatch m mark trail
  | .sequence mark .. => mismatch (.kind .sequence expected) mark trail
  | .mapping mark .. => mismatch (.kind .mapping expected) mark trail
  | .alias mark _ => mismatch (.kind .variant expected) mark trail

/-- The items of a sequence as values; a node that was left out has none. -/
def Document.readList (d : Document) (depth : Nat) : Reader (List Json) := fun trail n jumps => do
  let (trail, n, jumps) ← d.follow trail n jumps
  match n with
  | .sequence mark _ children complete =>
    match depth with
    | 0 => throw (.tooDeep mark)
    | depth + 1 => readItems (d.cutOf complete) (d.readJson depth) trail 0 children jumps
  | n => if isBare n then return ([], jumps) else notCollection "a sequence" trail n

/-- Goes past a node. -/
def Document.ignore (d : Document) (n : Node) : Except Error Unit :=
  match n with
  | .sequence _ _ _ complete | .mapping _ _ _ complete =>
    if complete then .ok () else .error d.cutError
  | .scalar .. | .alias .. => .ok ()

end Depot.Yaml
