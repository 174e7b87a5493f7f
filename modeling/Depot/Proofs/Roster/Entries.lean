import Depot.Proofs.Roster.Outcome

/-!
# Runs over entries

The entries of a repositories file are declared in turn. Either all of them are (`DeclaresAll`), or
there is a first one that fails, and the run fails as it does (`FirstFailure`). An entry fails for
what was written or for the local repository, and for nothing else (`declined_or_unavailable`).
-/

namespace Depot

/-- A failure that is due to what was written for a repository. -/
inductive Failure.Declined : Failure → Prop
  | unsupportedDescriptor (descriptor : String) : Declined (.unsupportedDescriptor descriptor)
  | propertyAssignment (property target : String) (reason : Reason) :
      Declined (.propertyAssignment property target reason)
  | duplicateRepository (name : String) : Declined (.duplicateRepository name)
  | invalidConfig (message : String) : Declined (.invalidConfig message)

namespace Roster

variable {f : Factory} {s t u : Roster} {entry : Json} {entries rest : List Json} {e : Failure}

/-! ### All entries, or a first one that fails -/

/-- All of some entries are declared, one after another. -/
inductive DeclaresAll (f : Factory) : Roster → List Json → Roster → Prop
  | nil (s : Roster) : DeclaresAll f s [] s
  | cons {s t u : Roster} {r : Repository} {entry : Json} {rest : List Json}
      (hentry : s.declare f entry = (.ok r, t)) (hrest : DeclaresAll f t rest u) :
      DeclaresAll f s (entry :: rest) u

/-- An entry fails after all those before it were declared. -/
def FirstFailure (f : Factory) (s : Roster) (entries : List Json) (e : Failure) : Prop :=
  ∃ before entry after t, entries = before ++ entry :: after ∧ DeclaresAll f s before t ∧
    (t.declare f entry).1 = .error e

lemma declareAll_cons_of_ok {r : Repository} (h : s.declare f entry = (.ok r, t)) :
    declareAll f (entry :: rest) s = declareAll f rest t := by
  rw [declareAll, h]

lemma DeclaresAll.declareAll_append (h : DeclaresAll f s entries t) :
    declareAll f (entries ++ rest) s = declareAll f rest t := by
  induction h with
  | nil => rfl
  | cons hentry _ ih => rw [List.cons_append, declareAll_cons_of_ok hentry, ih]

lemma FirstFailure.cons {r : Repository} (hentry : s.declare f entry = (.ok r, t))
    (h : FirstFailure f t rest e) : FirstFailure f s (entry :: rest) e := by
  obtain ⟨before, failing, after, u, rfl, hbefore, hfails⟩ := h
  exact ⟨entry :: before, failing, after, u, rfl, .cons hentry hbefore, hfails⟩

/-- A run over entries declares all of them, or ends as the first one that fails. -/
lemma declareAll_spec (f : Factory) (entries : List Json) (s : Roster) :
    match declareAll f entries s with
    | (.ok (), t) => DeclaresAll f s entries t
    | (.error e, _) => FirstFailure f s entries e := by
  -- Each entry is declared on the roster that the one before left.
  induction entries generalizing s with
  | nil => exact .nil s
  | cons entry rest ih =>
    cases hentry : s.declare f entry with
    | mk result t =>
      cases result with
      | error e =>
        rw [declareAll, hentry]
        exact ⟨[], entry, rest, s, rfl, .nil s, congrArg Prod.fst hentry⟩
      | ok r =>
        have hrest := ih t
        rw [declareAll_cons_of_ok hentry]
        generalize declareAll f rest t = o at hrest ⊢
        obtain ⟨(e | ⟨⟩), u⟩ := o
        · exact hrest.cons hentry
        · exact .cons hentry hrest

theorem declareAll_eq_ok_iff :
    declareAll f entries s = (.ok (), t) ↔ DeclaresAll f s entries t := by
  constructor
  · intro h
    have hspec := declareAll_spec f entries s
    rwa [h] at hspec
  · intro h
    rw [← entries.append_nil, h.declareAll_append]
    rfl

theorem declareAll_eq_error_iff :
    (declareAll f entries s).1 = .error e ↔ FirstFailure f s entries e := by
  constructor
  · intro h
    have hspec := declareAll_spec f entries s
    generalize declareAll f entries s = o at h hspec
    obtain ⟨result, t⟩ := o
    obtain rfl : result = .error e := h
    exact hspec
  · rintro ⟨before, entry, after, t, rfl, hbefore, hfails⟩
    have hentry : t.declare f entry = (.error e, (t.declare f entry).2) := Prod.ext hfails rfl
    rw [hbefore.declareAll_append, declareAll, hentry]

/-- What holds of every entry and the repository that it is answered with, holds of the entries and
the repositories that a run declares, one by one. -/
lemma DeclaresAll.forall₂ {P : Json → Repository → Prop}
    (hP : ∀ {s t : Roster} {entry : Json} {r : Repository},
      s.declare f entry = (.ok r, t) → P entry r)
    (h : DeclaresAll f s entries t) :
    ∃ rs, t.declared = s.declared ++ rs ∧ List.Forall₂ P entries rs := by
  induction h with
  | nil s => exact ⟨[], s.declared.append_nil.symm, .nil⟩
  | @cons s t u r entry rest hentry hrest ih =>
    have hrun : s.run f (.declare entry) = (.ok r, t) := hentry
    obtain ⟨-, -, -, ht⟩ := run_eq_ok hrun
    obtain ⟨rs, hu, hrs⟩ := ih
    refine ⟨r :: rs, ?_, .cons (hP hentry) hrs⟩
    rw [hu, ht, List.append_assoc, List.singleton_append]

/-! ### Why an entry fails -/

lemma Shorthand.declined_or_unavailable {w : Shorthand} {m : Properties} {used : Nat}
    (h : (w.build f m used).1 = .error e) :
    e.Declined ∨ ∃ message, e = .localRepositoryUnavailable message := by
  by_cases havailable : w.Available f used
  · by_cases hassignable : m.Assignable w.kind
    · obtain ⟨r, hbuild⟩ : ∃ r, (w.build f m used).1 = .ok r := exists_build havailable hassignable
      rw [hbuild] at h
      cases h
    · obtain ⟨key, value, target, reason, -, -, hbuild⟩ := build_unassignable havailable hassignable
      rw [hbuild] at h
      cases h
      exact .inl (.propertyAssignment key target reason)
  · obtain ⟨message, hbuild⟩ := build_unavailable havailable
    rw [hbuild] at h
    cases h
    exact .inr ⟨message, rfl⟩

namespace Request

lemma declined_of_ofValue {v : Json} (h : ofValue v = .refused e) : e.Declined := by
  cases v with
  | string | object => cases h
  | null | bool | number | array =>
    cases h
    exact .unsupportedDescriptor _

lemma declined_of_ofShorthand {w : Shorthand} {config : Json}
    (h : ofShorthand w config = .refused e) : e.Declined := by
  cases config with
  | null | object => cases h
  | bool | number | string | array =>
    cases h
    exact .invalidConfig _

lemma declined_of_ofEntry (h : ofEntry entry = .refused e) : e.Declined := by
  unfold ofEntry at h
  split at h
  · cases h
  · cases h
  · split at h
    · split at h
      · exact declined_of_ofShorthand h
      · exact declined_of_ofValue h
    · exact declined_of_ofValue h
  · exact declined_of_ofValue h

/-- A request that is entered fails in being built or for a name that is taken. -/
lemma declined_or_unavailable {q : Request} (hq : ∀ e, q = .refused e → e.Declined)
    (h : (q.run f s).1 = .error e) :
    e.Declined ∨ ∃ message, e = .localRepositoryUnavailable message := by
  cases hresult : q.result f s.used with
  | mk result used =>
    rw [Request.run, hresult] at h
    cases result with
    | ok r =>
      obtain ⟨-, rfl, -⟩ := enter_eq_error_iff.1 (Prod.ext h rfl)
      exact .inl (.duplicateRepository r.name)
    | error e' =>
      cases h
      cases q with
      | build w m => exact Shorthand.declined_or_unavailable (congrArg Prod.fst hresult)
      | existing | resolver => cases hresult
      | refused e' =>
        cases hresult
        exact .inl (hq e rfl)

end Request

theorem declined_or_unavailable (h : (s.declare f entry).1 = .error e) :
    e.Declined ∨ ∃ message, e = .localRepositoryUnavailable message := by
  rw [declare_eq] at h
  exact Request.declined_or_unavailable (fun _ => Request.declined_of_ofEntry) h

end Roster

end Depot
