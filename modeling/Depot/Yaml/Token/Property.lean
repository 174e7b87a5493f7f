import Depot.Yaml.Token.Scalar

/-!
# Anchors, tags and directives

The words that give a node a name or a type, and the lines that say how tags are abbreviated.
-/

namespace Depot.Yaml

/-! ### Anchors -/

/-- Whether a character may stand right behind the name of an anchor. -/
def endsName (c : Char) : Bool :=
  isBlank c || isBreak c || "?:,]\x7d%@`".toList.contains c

/-- The anchor or alias at a cursor. -/
def readAnchor (isAlias : Bool) (c : Cursor) : Except Fault (Token × Cursor) :=
  let (name, after) := (c.skip 1).span isWord
  if name.isEmpty || !after.rest.head?.all endsName then
    .error (.within (if isAlias then .alias else .anchor) c.mark .missingName after.mark)
  else
    .ok (⟨if isAlias then .alias name else .anchor name, c.mark, after.mark⟩, after)

/-! ### Tags -/

/-- Whether a character may stand in a tag. -/
def isUri (verbatim : Bool) (c : Char) : Bool :=
  isWord c || ";/?:@&=+$.%!~*'()".toList.contains c || (verbatim && ",[]".toList.contains c)

/-- How many octets a character has, by its first one. -/
def leadingWidth? (octet : Nat) : Option Nat :=
  if octet < 0x80 then some 1
  else if 0xC0 ≤ octet && octet < 0xE0 then some 2
  else if 0xE0 ≤ octet && octet < 0xF0 then some 3
  else if 0xF0 ≤ octet && octet < 0xF8 then some 4
  else none

/-- The escaped octets of one character, of which `width` are still to come if any was read. -/
def readOctets (fault : Problem → Mark → Fault) :
    Nat → Option Nat → Tag → Cursor → Except Fault (Tag × Cursor)
  | 0, _, done, c => .ok (done, c)
  | fuel + 1, width, done, c =>
    match c.rest with
    | '%' :: a :: b :: _ =>
      match hexValue? [a, b] with
      | none => .error (fault .missingUriOctet c.mark)
      | some octet =>
        let step (left : Nat) : Except Fault (Tag × Cursor) :=
          let done := done ++ [UInt8.ofNat octet]
          if left = 0 then .ok (done, c.skip 3)
          else readOctets fault fuel (some left) done (c.skip 3)
        match width with
        | none =>
          match leadingWidth? octet with
          | none => .error (fault .wrongLeadingOctet c.mark)
          | some w => step (w - 1)
        | some w =>
          if 0x80 ≤ octet && octet < 0xC0 then step (w - 1)
          else .error (fault .wrongTrailingOctet c.mark)
    | _ => .error (fault .missingUriOctet c.mark)

/-- The octets of a tag from a cursor on, after those in `done`. -/
def readUriFrom (verbatim : Bool) (fault : Problem → Mark → Fault) :
    Nat → Tag → Cursor → Except Fault (Tag × Cursor)
  | 0, done, c => .ok (done, c)
  | fuel + 1, done, c =>
    match c.peek? with
    | some '%' =>
      match readOctets fault 4 none done c with
      | .error f => .error f
      | .ok (done, c) => readUriFrom verbatim fault fuel done c
    | some x =>
      if isUri verbatim x then
        readUriFrom verbatim fault fuel (done ++ Tag.ofChars [x]) (c.skip 1)
      else .ok (done, c)
    | none => .ok (done, c)

/-- The part of a tag at a cursor, behind what was taken for a handle; together they may not be
empty. -/
def readUri (verbatim inDirective : Bool) (head : List Char) (start : Mark) (c : Cursor) :
    Except Fault (Tag × Cursor) :=
  let fault := Fault.within (if inDirective then .directiveUri else .uri) start
  match readUriFrom verbatim fault (c.rest.length + 1) (Tag.ofChars head.tail) c with
  | .error f => .error f
  | .ok (uri, after) =>
    if head.isEmpty && uri.isEmpty then .error (fault .missingUri after.mark)
    else .ok (uri, after)

/-- The handle at a cursor: exclamation marks around a name, or what looks like the beginning of
one. -/
def readHandle (inDirective : Bool) (start : Mark) (c : Cursor) :
    Except Fault (List Char × Cursor) :=
  if !c.sees '!' then
    .error (.within (if inDirective then .handle else .tag) start .missingBang c.mark)
  else
    let (name, c) := (c.skip 1).span isWord
    if c.sees '!' then .ok ('!' :: name ++ ['!'], c.skip 1)
    else if inDirective && !name.isEmpty then
      .error (.within .handleEnd start .missingBang c.mark)
    else .ok ('!' :: name, c)

/-- The handle and the suffix of the tag at a cursor. -/
def readTagParts (start : Mark) (c : Cursor) : Except Fault (List Char × Tag × Cursor) := do
  if (c.rest.drop 1).head? == some '<' then
    let (suffix, c) ← readUri true false [] start (c.skip 2)
    if !c.sees '>' then throw (.within .tag start .missingAngle c.mark)
    return ([], suffix, c.skip 1)
  else
    let (handle, c) ← readHandle false start c
    if 1 < handle.length && handle.getLast? == some '!' then
      let (suffix, c) ← readUri false false [] start c
      return (handle, suffix, c)
    else
      let (suffix, c) ← readUri false false handle start c
      if suffix.isEmpty then return ([], Tag.ofChars ['!'], c)
      else return (['!'], suffix, c)

/-- The tag at a cursor. Between brackets or braces a comma may follow it. -/
def readTag (flow : Bool) (c : Cursor) : Except Fault (Token × Cursor) := do
  let start := c.mark
  let (handle, suffix, c) ← readTagParts start c
  if !(flow && c.sees ',') && !c.blankAfter 0 then
    throw (.within .tag start .missingBlankOrBreak c.mark)
  return (⟨.tag handle suffix, start, c.mark⟩, c)

/-! ### Directives -/

/-- The number at a cursor, of nine digits at most. -/
def readVersionNumber (start : Mark) (c : Cursor) : Except Fault (Nat × Cursor) :=
  let (ds, after) := c.span Char.isDigit
  if 9 < ds.length then
    .error (.within .versionDirective start .longVersion (c.mark.right 9))
  else if ds.isEmpty then .error (.within .versionDirective start .missingVersion c.mark)
  else .ok (ds.foldl (fun n d => 10 * n + (d.toNat - 48)) 0, after)

/-- The version behind the name of its directive. -/
def readVersion (start : Mark) (c : Cursor) : Except Fault (Word × Mark × Cursor) := do
  let (major, c) ← readVersionNumber start c.skipBlanks
  if !c.sees '.' then throw (.within .versionDirective start .missingDot c.mark)
  let (minor, c) ← readVersionNumber start (c.skip 1)
  return (.versionDirective major minor, c.mark, c)

/-- The handle and what it stands for, behind the name of their directive. -/
def readAbbreviation (start : Mark) (c : Cursor) : Except Fault (Word × Mark × Cursor) := do
  let (handle, c) ← readHandle true start c.skipBlanks
  if !c.peek?.any isBlank then throw (.within .tagDirective start .missingBlank c.mark)
  let (lead, c) ← readUri true true [] start c.skipBlanks
  if !c.blankAfter 0 then throw (.within .tagDirective start .missingBlankOrBreak c.mark)
  return (.tagDirective handle lead, c.mark, c)

/-- The directive at a cursor, up to the next line. -/
def readDirective (c : Cursor) : Except Fault (Token × Cursor) := do
  let start := c.mark
  let (name, c) := (c.skip 1).span isWord
  if name.isEmpty then throw (.within .directive start .missingDirectiveName c.mark)
  if !c.blankAfter 0 then throw (.within .directive start .nonAlphabetical c.mark)
  let (word, stop, c) ←
    match String.ofList name with
    | "YAML" => readVersion start c
    | "TAG" => readAbbreviation start c
    | _ => throw (.within .directive start .unknownDirective c.mark)
  let c := c.skipBlanks
  let c := if c.sees '#' then c.skipLine else c
  if !c.atLineEnd then throw (.within .directive start .missingLineBreak c.mark)
  return (⟨word, start, stop⟩, c.skipBreak)

end Depot.Yaml
