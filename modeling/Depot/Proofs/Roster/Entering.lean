import Depot.Proofs.Roster.Naming

/-!
# Entering a repository

Every way of declaring a repository ends by entering a finished one. Entering succeeds with the
repository under its own name or, if that is taken and was not given, under the least free number
behind it (`enter_eq_ok_iff`); it fails exactly when a given name is taken (`enter_eq_error_iff`).
`Extends` is what all of it has in common.
-/

namespace Depot

@[simp] lemma Repository.withName_name (r : Repository) : r.withName r.name = r := by
  cases r <;> rfl

namespace Roster

/-- A roster with one more repository at its end. -/
def push (s : Roster) (r : Repository) : Roster :=
  { s with declared := s.declared ++ [r] }

/-- What a finished repository is entered as: it keeps its name if that is free, and gets the least
free number behind it if that is taken and was not given. -/
inductive Settled (s : Roster) (r : Repository) (explicit : Bool) : Repository → Prop where
  | kept (h : r.name ∉ s.names) : Settled s r explicit r
  | renamed {n : Nat} (hexplicit : explicit = false) (h : r.name ∈ s.names)
      (hn : s.LeastFree r.name n) : Settled s r explicit (r.withName (numbered r.name n))

variable {s t : Roster} {r u : Repository} {explicit : Bool}

/-! ### The three ways to enter -/

lemma enter_of_free (h : r.name ∉ s.names) : s.enter r explicit = (.ok r, s.push r) := by
  have htakes : s.takes r.name = false := takes_eq_false_iff.2 h
  simp [enter, htakes, push]

lemma enter_of_given (h : r.name ∈ s.names) :
    s.enter r true = (.error (.duplicateRepository r.name), s) := by
  have htakes : s.takes r.name = true := takes_iff.2 h
  simp [enter, htakes]

lemma enter_of_taken {n : Nat} (h : r.name ∈ s.names) (hn : s.LeastFree r.name n) :
    s.enter r false =
      (.ok (r.withName (numbered r.name n)), s.push (r.withName (numbered r.name n))) := by
  have htakes : s.takes r.name = true := takes_iff.2 h
  obtain ⟨k, hk, -, hname⟩ := freeName_spec h
  rw [hk.unique hn] at hname
  simp [enter, htakes, hname, push]

theorem enter_eq_ok_iff :
    s.enter r explicit = (.ok u, t) ↔ s.Settled r explicit u ∧ t = s.push u := by
  constructor
  · intro henter
    by_cases h : r.name ∈ s.names
    · cases explicit with
      | true =>
        rw [enter_of_given h] at henter
        cases henter
      | false =>
        obtain ⟨n, hn, -, -⟩ := freeName_spec h
        rw [enter_of_taken h hn] at henter
        cases henter
        exact ⟨.renamed rfl h hn, rfl⟩
    · rw [enter_of_free h] at henter
      cases henter
      exact ⟨.kept h, rfl⟩
  · rintro ⟨hsettled, rfl⟩
    cases hsettled with
    | kept h => exact enter_of_free h
    | renamed hexplicit h hn =>
      subst hexplicit
      exact enter_of_taken h hn

theorem enter_eq_error_iff {e : Failure} : s.enter r explicit = (.error e, t) ↔
    (explicit = true ∧ r.name ∈ s.names) ∧ e = .duplicateRepository r.name ∧ t = s := by
  constructor
  · intro henter
    by_cases h : r.name ∈ s.names
    · cases explicit with
      | true =>
        rw [enter_of_given h] at henter
        cases henter
        exact ⟨⟨rfl, h⟩, rfl, rfl⟩
      | false =>
        obtain ⟨n, hn, -, -⟩ := freeName_spec h
        rw [enter_of_taken h hn] at henter
        cases henter
    · rw [enter_of_free h] at henter
      cases henter
  · rintro ⟨⟨rfl, h⟩, rfl, rfl⟩
    exact enter_of_given h

/-! ### What a declaration leaves behind -/

lemma Settled.name_free (h : s.Settled r explicit u) : u.name ∉ s.names := by
  cases h with
  | kept h => exact h
  | renamed _ _ hn =>
    rw [Repository.name_withName]
    exact hn.free

/-- Nothing but the name of a repository changes. -/
lemma Settled.eq_withName (h : s.Settled r explicit u) : u = r.withName u.name := by
  cases h with
  | kept h => rw [Repository.withName_name]
  | renamed _ _ hn => rw [Repository.name_withName]

lemma Settled.eq_of_explicit (h : s.Settled r explicit u) (hexplicit : explicit = true) :
    u = r := by
  cases h with
  | kept _ => rfl
  | renamed hfalse _ _ =>
    rw [hexplicit] at hfalse
    cases hfalse

/-- How many holders were handed out has no bearing on names. -/
lemma Settled.of_used {used : Nat} (h : Settled { s with used } r explicit u) :
    s.Settled r explicit u := by
  cases h with
  | kept h => exact .kept h
  | renamed hexplicit h hn => exact .renamed hexplicit h ⟨hn.two_le, hn.free, hn.least⟩

/-- A success appends the repository that it answers with, under a name that was free; a failure
declares nothing. -/
def Extends (s : Roster) : Except Failure Repository × Roster → Prop
  | (.ok r, t) => t.declared = s.declared ++ [r] ∧ r.name ∉ s.names
  | (.error _, t) => t.declared = s.declared

lemma enter_extends (s : Roster) (r : Repository) (explicit : Bool) :
    s.Extends (s.enter r explicit) := by
  cases h : s.enter r explicit with
  | mk result t =>
    cases result with
    | ok u =>
      obtain ⟨hsettled, rfl⟩ := enter_eq_ok_iff.1 h
      exact ⟨rfl, hsettled.name_free⟩
    | error e =>
      obtain ⟨-, -, rfl⟩ := enter_eq_error_iff.1 h
      rfl

/-- Names that were distinct stay so. -/
lemma Extends.nodup_names {o : Except Failure Repository × Roster} (h : s.Extends o)
    (hs : s.names.Nodup) : o.2.names.Nodup := by
  obtain ⟨(e | r), t⟩ := o
  · rw [names, show t.declared = s.declared from h]
    exact hs
  · obtain ⟨hdeclared, hfree⟩ := h
    rw [names, hdeclared, List.map_append]
    refine List.nodup_append.2 ⟨hs, List.nodup_singleton _, ?_⟩
    rintro name hname _ hlast rfl
    rw [List.map_singleton, List.mem_singleton] at hlast
    exact hfree (hlast ▸ hname)

end Roster

end Depot
