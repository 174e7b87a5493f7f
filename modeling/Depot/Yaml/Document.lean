import Depot.Yaml.Event

/-!
# Documents

The nodes of the first document of a text as a tree. A collection that a fault cut short holds the
nodes before the fault and is marked as incomplete. An alias holds the number of its anchor; the
numbers count the names in use, so a name that is anchored anew may take the number of another one,
which then leads to the node that was anchored last.
-/

namespace Depot.Yaml

/-- A node of a document. The children of a mapping are its keys and values in turn. -/
inductive Node where
  | alias (mark : Mark) (number : Nat)
  | scalar (mark : Mark) (tag : Option Tag) (text : String) (plain : Bool)
  | sequence (mark : Mark) (tag : Option Tag) (children : List Node) (complete : Bool)
  | mapping (mark : Mark) (tag : Option Tag) (children : List Node) (complete : Bool)
  deriving Inhabited

/-- Why a document ends early. -/
inductive Broken where
  | fault (f : Fault)
  | unknownAnchor (mark : Mark)
  deriving DecidableEq, Repr

/-- The first document of a text. It has no root if the text is empty or broken before it. -/
structure Document where
  root : Option Node := none
  size : Nat := 0
  anchors : List (Nat × Node) := []
  broken : Option Broken := none
  hasMore : Bool := false

namespace Document

/-- A collection that is being read. Its children are in reverse order. -/
structure Frame where
  place : Nat
  mark : Mark
  tag : Option Tag
  isMapping : Bool
  children : List Node := []

/-- A document that is being read: how many nodes and ends were read, the numbers of the names of
anchors, the places of the anchors of a number, the last one first, and the anchored nodes. -/
structure Draft where
  size : Nat := 0
  names : List (List Char × Nat) := []
  places : List (Nat × Nat) := []
  nodes : List (Nat × Node) := []
  frames : List Frame := []
  root : Option Node := none

namespace Draft

/-- Names the place that is read next. -/
def anchor (d : Draft) : Option (List Char) → Draft
  | none => d
  | some name =>
    let number := d.names.length
    { d with
      names := (name, number) :: d.names.filter (·.1 != name)
      places := (number, d.size) :: d.places }

/-- Adds a node to the innermost collection. -/
def add (d : Draft) (n : Node) : Draft :=
  match d.frames with
  | [] => { d with root := some n }
  | f :: frames => { d with frames := { f with children := n :: f.children } :: frames }

/-- Counts a piece of the document. -/
def count (d : Draft) : Draft :=
  { d with size := d.size + 1 }

/-- Adds the innermost collection to the one around it. -/
def close (complete : Bool) (d : Draft) : Draft :=
  match d.frames with
  | [] => d
  | f :: frames =>
    let children := f.children.reverse
    let n : Node :=
      if f.isMapping then .mapping f.mark f.tag children complete
      else .sequence f.mark f.tag children complete
    { d with frames, nodes := (f.place, n) :: d.nodes }.add n

/-- Opens a collection. -/
def enter (d : Draft) (name : Option (List Char)) (mark : Mark) (tag : Option Tag)
    (isMapping : Bool) : Draft :=
  let frame : Frame := { place := d.size, mark, tag, isMapping }
  let d := d.anchor name
  { d with frames := frame :: d.frames }.count

/-- The document so far. -/
def finish (d : Draft) (broken : Option Broken) (hasMore : Bool) : Document :=
  let d := (List.range d.frames.length).foldl (fun d _ => d.close false) d
  { root := d.root
    size := d.size
    anchors := d.places.filterMap fun (number, place) =>
      (d.nodes.lookup place).map fun n => (number, n)
    broken
    hasMore }

end Draft

/-- Reads the events of a document. -/
def ofEvents (fault : Option Fault) (d : Draft) : List Event → Document
  | [] => d.finish (fault.map .fault) false
  | ⟨item, mark⟩ :: rest =>
    match item with
    | .documentStart => ofEvents fault d rest
    | .streamEnd => d.finish none false
    | .documentEnd =>
      let isEnd := rest.head?.any fun e => e.item == .streamEnd
      d.finish none !isEnd
    | .alias name =>
      match d.names.lookup name with
      | none => d.finish (some (.unknownAnchor mark)) false
      | some number => ofEvents fault (d.count.add (.alias mark number)) rest
    | .scalar name tag text plain =>
      let n : Node := .scalar mark tag (String.ofList text) plain
      let place := d.size
      let d := (d.anchor name).count
      ofEvents fault ({ d with nodes := (place, n) :: d.nodes }.add n) rest
    | .sequenceStart name tag => ofEvents fault (d.enter name mark tag false) rest
    | .mappingStart name tag => ofEvents fault (d.enter name mark tag true) rest
    | .sequenceEnd | .mappingEnd => ofEvents fault (d.count.close true) rest

/-- The first document of a text. -/
def read (text : String) : Document :=
  let (es, fault) := events text.toList
  ofEvents fault {} es

/-- The node that an alias stands for. -/
def anchored? (d : Document) (number : Nat) : Option Node :=
  d.anchors.lookup number

end Document

end Depot.Yaml
