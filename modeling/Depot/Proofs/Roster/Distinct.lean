import Depot.Proofs.Roster.Request

/-!
# Distinct names

One operation appends the repository that it answers with, or declares nothing. Names that are
distinct stay distinct under it, and so they are distinct after every run.
-/

namespace Depot

namespace Roster

/-! ### One operation -/

lemma enterResult_extends (s : Roster) (explicit : Bool)
    (built : Except Failure Repository × Nat) : s.Extends (s.enterResult explicit built) := by
  obtain ⟨(e | r), used⟩ := built
  · rfl
  · exact enter_extends { s with used } r explicit

theorem run_extends (f : Factory) (op : Operation) (s : Roster) : s.Extends (s.run f op) := by
  rw [run_eq]
  exact enterResult_extends s _ _

/-! ### Runs -/

@[simp] lemma runAll_nil (f : Factory) (s : Roster) : runAll f [] s = s := rfl

@[simp] lemma runAll_cons (f : Factory) (op : Operation) (ops : List Operation) (s : Roster) :
    runAll f (op :: ops) s = runAll f ops (s.run f op).2 := rfl

/-- What each operation of a run keeps, the run keeps. -/
lemma runAll_induction {f : Factory} {P : Roster → Prop} {ops : List Operation}
    (hstep : ∀ op ∈ ops, ∀ s, P s → P (s.run f op).2) {s : Roster} (h : P s) :
    P (runAll f ops s) := by
  induction ops generalizing s with
  | nil => exact h
  | cons op ops ih =>
    obtain ⟨hop, hops⟩ := List.forall_mem_cons.1 hstep
    exact ih hops (hop s h)

lemma nodup_names_runAll (f : Factory) (ops : List Operation) {s : Roster}
    (h : s.names.Nodup) : (runAll f ops s).names.Nodup :=
  runAll_induction (P := fun s => s.names.Nodup)
    (fun op _ s hs => (run_extends f op s).nodup_names hs) h

/-- After every run the names are distinct, a name is looked up to the one repository that has it,
and the next operation appends the repository that it answers with or declares nothing. -/
theorem runAll_distinct (f : Factory) (ops : List Operation) (used : Nat) :
    let s := runAll f ops { used }
    s.names.Nodup ∧
      (∀ name r, s.get? name = some r ↔ r ∈ s.declared ∧ r.name = name) ∧
      (∀ r ∈ s.declared, s.get? r.name = some r) ∧
      ∀ op, match s.run f op with
        | (.ok r, t) => t.declared = s.declared ++ [r]
        | (.error _, t) => t.declared = s.declared := by
  intro s
  have hnodup : s.names.Nodup := nodup_names_runAll f ops List.nodup_nil
  refine ⟨hnodup, fun name r => get?_eq_some_iff hnodup, ?_, ?_⟩
  · intro r hr
    exact (get?_eq_some_iff hnodup).2 ⟨hr, rfl⟩
  · intro op
    have hext := run_extends f op s
    cases h : s.run f op with
    | mk result t =>
      rw [h] at hext
      cases result with
      | ok r => exact hext.1
      | error e => exact hext

end Roster

end Depot
