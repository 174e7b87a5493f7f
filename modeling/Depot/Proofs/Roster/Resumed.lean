import Depot.Proofs.Roster.Entries
import Depot.Proofs.Roster.Holders
import Depot.Proofs.Roster.Numbering

/-!
# Runs that are resumed

A run over entries is the run over its first part followed by the run over the rest. One that fails
leaves what the entries before the failing one declared, and no trace of the failing one but a
holder that it may have taken. So where all holders are empty the run can be resumed: the entry is
replaced, and the run from there on ends as a run over all entries would have
(`declareAll_resumes`).
-/

namespace Depot

namespace Roster

variable {f : Factory} {s t u : Roster} {xs ys : List Json} {entry : Json} {e : Failure}

/-! ### One run after another -/

lemma declareAll_append (f : Factory) (xs ys : List Json) (s : Roster) :
    declareAll f (xs ++ ys) s =
      match declareAll f xs s with
      | (.ok (), t) => declareAll f ys t
      | (.error e, t) => (.error e, t) := by
  induction xs generalizing s with
  | nil => rfl
  | cons entry xs ih =>
    rw [List.cons_append, declareAll, declareAll]
    obtain ⟨(e | r), t⟩ := s.declare f entry
    · rfl
    · exact ih t

/-- A run ends with the first failure, whatever stands behind the failing entry. -/
lemma DeclaresAll.declareAll_stop (h : DeclaresAll f s xs t)
    (hfails : t.declare f entry = (.error e, u)) (ys : List Json) :
    declareAll f (xs ++ entry :: ys) s = (.error e, u) := by
  rw [h.declareAll_append, declareAll, hfails]

/-! ### What a run declares -/

/-- Entries that are all declared are the declarations of their run, one for each. -/
lemma DeclaresAll.declarations_eq (h : DeclaresAll f s xs t) :
    (declarations f (xs.map .declare) s).map Prod.fst = xs.map .declare ∧
      t.declared = s.declared ++ (declarations f (xs.map .declare) s).map Prod.snd := by
  induction h with
  | nil s => simp [declarations]
  | @cons s t u r entry rest hentry _ ih =>
    have hrun : s.run f (.declare entry) = (.ok r, t) := hentry
    obtain ⟨-, -, -, ht⟩ := run_eq_ok hrun
    obtain ⟨hops, hdeclared⟩ := ih
    rw [List.map_cons, declarations, hrun]
    constructor
    · rw [List.map_cons, hops]
    · rw [hdeclared, ht, List.append_assoc]
      rfl

/-- A failing entry declares nothing. -/
lemma declared_of_declare_eq_error (h : s.declare f entry = (.error e, t)) :
    t.declared = s.declared := by
  have hext := run_extends f (.declare entry) s
  rw [run, h] at hext
  exact hext

/-! ### Resuming -/

/-- With a steady factory, a run is settled by its entries and the repositories before. -/
lemma declareAll_sameOutcome (hf : f.Steady) (xs : List Json)
    (h : s.declared = t.declared) : SameOutcome (declareAll f xs s) (declareAll f xs t) := by
  -- Both runs take the same branch at each entry, and go on from the same repositories.
  induction xs generalizing s t with
  | nil => exact ⟨rfl, h⟩
  | cons entry xs ih =>
    have hstep : SameOutcome (s.declare f entry) (t.declare f entry) :=
      run_sameOutcome h hf (.declare entry)
    rw [declareAll, declareAll]
    generalize s.declare f entry = o, t.declare f entry = o' at hstep
    obtain ⟨result, s⟩ := o
    obtain ⟨_, t⟩ := o'
    obtain ⟨rfl, hdeclared⟩ := hstep
    cases result with
    | error e => exact ⟨rfl, hdeclared⟩
    | ok r => exact ih hdeclared

/-- A run over two lists is the run over the first and, if that succeeds, the run over the second. A
run that fails has a first entry that fails. It ends as that one does, whatever the entries behind
it, and leaves one repository for each entry before it. With a steady factory, running another entry
in its place and then the rest ends as running all of them from the start. -/
theorem declareAll_resumes (f : Factory) (s : Roster) :
    (∀ xs ys, declareAll f (xs ++ ys) s =
      match declareAll f xs s with
      | (.ok (), t) => declareAll f ys t
      | (.error e, t) => (.error e, t)) ∧
    (∀ entries e u, declareAll f entries s = (.error e, u) → ∃ xs entry ys t,
      entries = xs ++ entry :: ys ∧ declareAll f xs s = (.ok (), t) ∧
        t.declare f entry = (.error e, u)) ∧
    ∀ xs entry t e u, declareAll f xs s = (.ok (), t) → t.declare f entry = (.error e, u) →
      (∀ ys, declareAll f (xs ++ entry :: ys) s = (.error e, u)) ∧
      ((declarations f (xs.map .declare) s).map Prod.fst = xs.map .declare ∧
        u.declared = s.declared ++ (declarations f (xs.map .declare) s).map Prod.snd) ∧
      (f.Steady → ∀ other ys,
        SameOutcome (declareAll f (other :: ys) u) (declareAll f (xs ++ other :: ys) s)) := by
  refine ⟨fun xs ys => declareAll_append f xs ys s, ?_, ?_⟩
  · intro entries e u h
    obtain ⟨xs, entry, ys, t, rfl, hxs, hfails⟩ :=
      declareAll_eq_error_iff.1 (congrArg Prod.fst h)
    have hstop := hxs.declareAll_stop (Prod.ext hfails rfl) ys
    obtain rfl : (t.declare f entry).2 = u := congrArg Prod.snd (hstop.symm.trans h)
    exact ⟨xs, entry, ys, t, rfl, declareAll_eq_ok_iff.2 hxs, Prod.ext hfails rfl⟩
  · intro xs entry t e u hxs hfails
    have hdeclares : DeclaresAll f s xs t := declareAll_eq_ok_iff.1 hxs
    have hu : u.declared = t.declared := declared_of_declare_eq_error hfails
    obtain ⟨hops, ht⟩ := hdeclares.declarations_eq
    refine ⟨hdeclares.declareAll_stop hfails, ⟨hops, hu.trans ht⟩, ?_⟩
    intro hf other ys
    rw [hdeclares.declareAll_append]
    exact declareAll_sameOutcome hf (other :: ys) hu

/-- The local repository cannot be located, and is replaced by a URL. The entry that fails takes a
holder all the same, and the numbers go on as if it had not been there. -/
theorem declareAll_resumes_without_local :
    let s := runAll withoutLocal [.declare (.string "https://a.example.org")] {}
    let xs := [Json.string "https://b.example.org"]
    let entry := Json.string "mavenLocal"
    let other := Json.string "https://c.example.org"
    let ys := [Json.string "mavenCentral"]
    ∃ t e u, declareAll withoutLocal xs s = (.ok (), t) ∧
      t.declare withoutLocal entry = (.error e, u) ∧
      declareAll withoutLocal (xs ++ entry :: ys) s = (.error e, u) ∧
      (u.names = ["maven", "maven2"] ∧ u.used = 3) ∧
      (declareAll withoutLocal (xs ++ other :: ys) s).2.names =
        ["maven", "maven2", "maven3", "MavenRepo"] ∧
      SameOutcome (declareAll withoutLocal (other :: ys) u)
        (declareAll withoutLocal (xs ++ other :: ys) s) := by
  intro s xs entry other ys
  obtain ⟨-, -, hstops⟩ := declareAll_resumes withoutLocal s
  have hxs : declareAll withoutLocal xs s = (.ok (), (declareAll withoutLocal xs s).2) := rfl
  have hfails : (declareAll withoutLocal xs s).2.declare withoutLocal entry =
      (.error (.localRepositoryUnavailable "no home directory"), _) := rfl
  obtain ⟨hstop, -, hresumes⟩ := hstops xs entry _ _ _ hxs hfails
  exact ⟨_, _, _, hxs, hfails, hstop ys, ⟨rfl, rfl⟩, rfl,
    hresumes steady_withoutLocal other ys⟩

end Roster

end Depot
