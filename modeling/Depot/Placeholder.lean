/-!
# Placeholders

A placeholder is a key between `${` and the next closing brace. `cut` takes a text apart from left
to right, in one pass: a dollar and a brace that no closing brace follows, or that one follows at
once, are plain characters. `expand` puts the values of the keys in the places of the placeholders;
what it puts there is not looked at again.
-/

namespace Depot.Placeholder

/-- A part of a text with placeholders. -/
inductive Part where
  | plain (c : Char)
  | key (name : List Char)
  deriving DecidableEq, Repr

/-- The key at the front of a text, up to its closing brace, and what follows. -/
def readKey? (cs : List Char) : Option (List Char × List Char) :=
  let name := cs.takeWhile (· != '\x7d')
  match cs.drop name.length with
  | [] => none
  | _ :: rest => if name.isEmpty then none else some (name, rest)

theorem length_lt_of_readKey? {cs name rest : List Char} (h : readKey? cs = some (name, rest)) :
    rest.length < cs.length := by
  simp only [readKey?] at h
  split at h
  · simp at h
  · next c tail hd =>
    split at h
    · simp at h
    · simp only [Option.some.injEq, Prod.mk.injEq] at h
      have hl := congrArg List.length hd
      simp only [List.length_drop, List.length_cons] at hl
      rw [← h.2]
      omega

/-- The parts of a text. -/
def cut (cs : List Char) : List Part :=
  match cs with
  | [] => []
  | '$' :: '\x7b' :: rest =>
    match h : readKey? rest with
    | some (name, after) =>
      have := length_lt_of_readKey? h
      .key name :: cut after
    | none => .plain '$' :: cut ('\x7b' :: rest)
  | c :: rest => .plain c :: cut rest
termination_by cs.length

/-- The text that some parts stand for, or the first key without a value. -/
def fill (value? : String → Option String) : List Part → Except String (List Char)
  | [] => .ok []
  | .plain c :: rest => (fill value? rest).map (c :: ·)
  | .key name :: rest =>
    match value? (String.ofList name) with
    | none => .error (String.ofList name)
    | some value => (fill value? rest).map (value.toList ++ ·)

/-- The text with the values of its keys, or the first key without a value. -/
def expand (value? : String → Option String) (text : String) : Except String String :=
  (fill value? (cut text.toList)).map String.ofList

end Depot.Placeholder
