import Depot.Xml.Event

/-!
# The text between tags

A line ends in a line feed, however it was written. A reference stands for a character: by its
number in decimal or hexadecimal digits, or by one of five names. Pieces of text, of quoted
character data and references that follow one another make up one text.
-/

namespace Depot.Xml

/-- The text with every line end as a line feed. A carriage return, a next line character and a line
separator end a line, and so does a carriage return with one of the first two behind it. -/
def normalizeLines : List Char → List Char
  | '\r' :: '\n' :: rest | '\r' :: '\x85' :: rest => '\n' :: normalizeLines rest
  | c :: rest =>
    (if c = '\r' ∨ c = '\x85' ∨ c = '\u2028' then '\n' else c) :: normalizeLines rest
  | [] => []

/-! ### References -/

/-- The value of a digit to a base of at most sixteen. -/
def digit? (base : Nat) (c : Char) : Option Nat :=
  let v :=
    if '0' ≤ c ∧ c ≤ '9' then c.toNat - 48
    else if 'a' ≤ c ∧ c ≤ 'f' then c.toNat - 87
    else if 'A' ≤ c ∧ c ≤ 'F' then c.toNat - 55
    else 16
  if v < base then some v else none

/-- The number that some digits write, as long as 32 bits hold it. -/
def readDigits (base : Nat) (value : Nat) : List Char → Except NumberFault Nat
  | [] => .ok value
  | c :: rest =>
    match digit? base c with
    | none => .error .digit
    | some d =>
      if base * value + d < 0x100000000 then readDigits base (base * value + d) rest
      else .error .tooLarge

/-- The number after the mark of a character reference. -/
def readNumber (cs : List Char) : Except NumberFault Nat :=
  let (base, ds) :=
    match cs with
    | 'x' :: ds => (16, ds)
    | ds => (10, ds)
  match ds with
  | [] => .error .empty
  | '+' :: _ | '-' :: _ => .error .sign
  | ds => readDigits base 0 ds

/-- The character of a number. -/
def characterOf (code : Nat) : Except NumberFault Char :=
  if code = 0 then .error (.forbidden code)
  else if code.isValidChar then .ok (Char.ofNat code)
  else .error (.noCharacter code)

/-- The character that a reference stands for. -/
def resolve (name : List Char) : Except Fault Char :=
  match name with
  | '#' :: number => ((readNumber number).bind characterOf).mapError .number
  | _ =>
    match String.ofList name with
    | "lt" => .ok '<'
    | "gt" => .ok '>'
    | "amp" => .ok '&'
    | "apos" => .ok '\''
    | "quot" => .ok '"'
    | other => .error (.unknownEntity other)

/-! ### Runs of text -/

/-- The text that the front of a list of pieces makes up, if there is any, and the pieces behind. -/
def readRun : List Event → Except Fault (Option (List Char) × List Event)
  | .text content :: rest => prepend (normalizeLines content) (readRun rest)
  | .cdata content :: rest => prepend (normalizeLines content) (readRun rest)
  | .reference name :: rest =>
    match resolve name with
    | .error f => .error f
    | .ok c => prepend [c] (readRun rest)
  | rest => .ok (none, rest)
where
  /-- A text with more in front. -/
  prepend (front : List Char) (run : Except Fault (Option (List Char) × List Event)) :
      Except Fault (Option (List Char) × List Event) :=
    run.map fun (text, rest) => (some (front ++ text.getD []), rest)

end Depot.Xml
