/-!
# Paths

A path is its text; a slash separates its components. Repeated slashes and components that are a
single dot count for nothing, except for a dot at the front of a relative path. Two paths are
equivalent when their components are the same.
-/

namespace Depot

/-- A path in the file system, as it was written. -/
structure Path where
  text : String
  deriving DecidableEq, Repr, Inhabited

namespace Path

/-- What a path is made of. -/
inductive Component where
  | root
  | current
  | parent
  | name (s : List Char)
  deriving DecidableEq, Repr

/-! ### Components -/

/-- The pieces of a text between slashes; one more than there are slashes. -/
def pieces : List Char → List (List Char)
  | [] => [[]]
  | c :: rest =>
    if c = '/' then [] :: pieces rest
    else
      match pieces rest with
      | [] => [[c]]
      | p :: ps => (c :: p) :: ps

/-- Whether a path begins at the root. -/
def isAbsolute (p : Path) : Bool :=
  p.text.toList.head? == some '/'

/-- A piece that counts for nothing. -/
def isIdle (piece : List Char) : Bool :=
  piece == [] || piece == ['.']

/-- A piece that counts, as a component. -/
def Component.ofPiece (piece : List Char) : Component :=
  if piece = ['.', '.'] then .parent else .name piece

/-- The components of a list of pieces. -/
def ofPieces (ps : List (List Char)) : List Component :=
  (ps.filter fun p => !isIdle p).map Component.ofPiece

/-- The components of a path. -/
def components (p : Path) : List Component :=
  let ps := pieces p.text.toList
  if p.isAbsolute then .root :: ofPieces ps
  else if ps.head? == some ['.'] then .current :: ofPieces ps
  else ofPieces ps

/-- Two paths with the same components. -/
def Equiv (p q : Path) : Prop :=
  p.components = q.components

instance (p q : Path) : Decidable (p.Equiv q) :=
  inferInstanceAs (Decidable (_ = _))

@[simp] theorem Equiv.refl (p : Path) : p.Equiv p := rfl

theorem Equiv.symm {p q : Path} (h : p.Equiv q) : q.Equiv p := Eq.symm h

theorem Equiv.trans {p q r : Path} (h : p.Equiv q) (h' : q.Equiv r) : p.Equiv r := Eq.trans h h'

/-! ### Joining -/

/-- A path below another one. An absolute path stands for itself; otherwise a slash is put between
the two unless one is there or the first is empty. -/
def join (p q : Path) : Path :=
  if q.isAbsolute then q
  else
    match p.text.toList.getLast? with
    | none | some '/' => ⟨p.text ++ q.text⟩
    | some _ => ⟨p.text ++ "/" ++ q.text⟩

theorem join_of_isAbsolute (p : Path) {q : Path} (h : q.isAbsolute = true) : p.join q = q := by
  simp [join, h]

theorem isAbsolute_append {p : Path} (h : p.isAbsolute = true) (s : String) :
    (Path.mk (p.text ++ s)).isAbsolute = true := by
  simp only [isAbsolute, beq_iff_eq] at h ⊢
  simp [h]

theorem isAbsolute_join {p : Path} (h : p.isAbsolute = true) (q : Path) :
    (p.join q).isAbsolute = true := by
  rw [join]
  split
  · assumption
  · split
    · exact isAbsolute_append h _
    · exact isAbsolute_append h _
    · rw [String.append_assoc]
      exact isAbsolute_append h _

/-! ### Parents -/

/-- Pieces in reverse order without those at their front that count for nothing. The last of them
is the front of the path, where a dot counts if the path is relative. -/
def settle (relative : Bool) : List (List Char) → List (List Char)
  | [] => []
  | [p] => if p == [] || (p == ['.'] && !relative) then [] else [p]
  | p :: ps => if isIdle p then settle relative ps else p :: ps

/-- The pieces put together again. -/
def ofReversed (root : List Char) (ps : List (List Char)) : Path :=
  ⟨String.ofList (root ++ List.intercalate ['/'] ps.reverse)⟩

/-- The path without its last component, as it was written; none for the root and the empty path. -/
def parent? (p : Path) : Option Path :=
  let absolute := p.isAbsolute
  let root := if absolute then ['/'] else []
  match settle (!absolute) (pieces (p.text.toList.drop root.length)).reverse with
  | [] => none
  | _ :: before => some (ofReversed root (settle (!absolute) before))

end Path

end Depot
