import Depot.Xml.Attribute
import Depot.Xml.Reference

/-!
# Settings documents

A settings document is an XML text with one element around all others, whatever its name. Only its
child for the location of the local repository counts; there may be one at most, and it holds text
alone.
-/

namespace Depot.Settings

open Xml

/-- The name of the child that holds the location. -/
def locationName : String := "localRepository"

/-- The pieces after the end of the element that was entered last, but for `depth` more. -/
def skipRest (name : String) : Nat → List Event → Except Fault (List Event)
  | _, [] => .error (.missingEnd name)
  | _, .fault f :: _ => .error f
  | depth, .start _ :: rest => skipRest name (depth + 1) rest
  | 0, .stop :: rest => .ok rest
  | depth + 1, .stop :: rest => skipRest name depth rest
  | depth, .text _ :: rest | depth, .cdata _ :: rest | depth, .reference _ :: rest =>
    skipRest name depth rest

/-- The pieces after the end of an element that was just entered. Of all that stands in it only the
tag that may come first is looked at. -/
def skipContent (name : String) : List Event → Except Fault (List Event)
  | .start tag :: rest =>
    match tagFault? tag with
    | some f => .error f
    | none => skipRest name 0 (.start tag :: rest)
  | es => skipRest name 0 es

/-- The pieces after the end of an element that was just entered and counts for nothing. The text
that it begins with, or else the element that it begins with, has to be well formed on its own. -/
def skipElement (name : String) (es : List Event) : Except Fault (List Event) :=
  match readRun es with
  | .error f => .error f
  | .ok (some _, rest) => skipContent name rest
  | .ok (none, .stop :: rest) => .ok rest
  | .ok (none, .start tag :: rest) =>
    match tagFault? tag with
    | some f => .error f
    | none => (skipContent (String.ofList (tagName tag)) rest).bind (skipContent name)
  | .ok (none, rest) => skipContent name rest

/-- The text of an element that was just entered, and the pieces after its end. -/
def readElement (name : String) (es : List Event) : Except Fault (List Char × List Event) :=
  match readRun es with
  | .error f => .error f
  | .ok (text, rest) =>
    match rest with
    | .stop :: rest => .ok (text.getD [], rest)
    | .fault f :: _ => .error f
    | .start tag :: _ =>
      .error ((tagFault? tag).getD (.unexpectedStart (String.ofList (tagName tag))))
    | _ => .error (.missingEnd name)

/-- Reads the children of the outermost element, whose tag is given; `found` tells what was found
for the location before. Every child takes at least one piece, which bounds the fuel. -/
def readChildren (root : List Char) :
    Nat → Option (Option (List Char)) → List Event → Except Fault (Option (List Char))
  | 0, found, _ => .ok found.join
  | fuel + 1, found, es =>
    match readRun es with
    | .error f => .error f
    | .ok (_, .stop :: _) => .ok found.join
    | .ok (_, .fault f :: _) => .error f
    | .ok (_, .start tag :: rest) =>
      match tagFault? tag with
      | some f => .error f
      | none =>
        let name := String.ofList (tagName tag)
        let bound := bindings tag ++ bindings root
        if String.ofList (localName (tagName tag)) ≠ locationName then
          match skipElement name rest with
          | .error f => .error f
          | .ok rest => readChildren root fuel found rest
        else if found.isSome then .error (.duplicateField locationName)
        else if isNil bound root || isNil bound tag then
          match skipElement name rest with
          | .error f => .error f
          | .ok rest => readChildren root fuel (some none) rest
        else
          match readElement name rest with
          | .error f => .error f
          | .ok (text, rest) => readChildren root fuel (some (some text)) rest
    | .ok _ => .error (.missingEnd (String.ofList (tagName root)))

/-- The location that a settings document gives. -/
def location? (text : String) : Except Fault (Option String) :=
  match readRun (events text) with
  | .error f => .error f
  | .ok (lead, rest) =>
    if !(lead.getD []).all isSpace then .error (.notADocument (String.ofList (lead.getD [])))
    else
      match rest with
      | .start root :: rest =>
        match tagFault? root, (attributes root).2 with
        | some f, _ => .error f
        | none, some f => .error (.attribute f)
        | none, none => (readChildren root (rest.length + 1) none rest).map (·.map String.ofList)
      | .fault f :: _ => .error f
      | _ => .error .unexpectedEnd

end Depot.Settings
