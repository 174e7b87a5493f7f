import Depot.Proofs.Roster.Directories

/-!
# Shared infrastructure

A factory binds every Maven and every Ivy repository that it builds to its own infrastructure. No
property assigns another one, and a new name leaves it as it is; so whatever an operation declares
is bound to the factory, unless a finished repository was handed to it.
-/

namespace Depot

namespace Repository

/-- A repository that is bound to no other infrastructure than this one. -/
def BoundTo (r : Repository) (shared : Infrastructure) : Prop :=
  ∀ own, r.infrastructure? = some own → own = shared

variable {r t : Repository} {p : String} {v : Json} {shared : Infrastructure}

lemma boundTo_of_eq (h : r.infrastructure? = some shared) : r.BoundTo shared := by
  intro own hown
  exact Option.some.inj (hown.symm.trans h)

lemma BoundTo.congr (h : r.BoundTo shared) (heq : t.infrastructure? = r.infrastructure?) :
    t.BoundTo shared := by
  intro own hown
  exact h own (heq.symm.trans hown)

/-- A Maven and an Ivy repository always have an infrastructure. -/
lemma BoundTo.infrastructure?_eq (h : r.BoundTo shared) (hr : r.kind = .maven ∨ r.kind = .ivy) :
    r.infrastructure? = some shared := by
  cases r with
  | maven r => exact congrArg some (h _ rfl)
  | ivy r => exact congrArg some (h _ rfl)
  | flatDir | custom => simp [kind] at hr

/-! ### What is done to a repository -/

@[simp] lemma infrastructure?_withName (name : String) (r : Repository) :
    (r.withName name).infrastructure? = r.infrastructure? := by
  cases r <;> rfl

lemma Assigned.infrastructure?_eq (h : r.Assigned p v t) :
    t.infrastructure? = r.infrastructure? := by
  cases h with
  | maven h => cases h <;> rfl
  | ivy h => cases h <;> rfl
  | flatDir h => rfl

lemma infrastructure?_of_configureEntries (r : Repository) (es : List (String × Json)) :
    (configureEntries r es).1.infrastructure? = r.infrastructure? :=
  configureEntries_keeps infrastructure? (fun h => (assign_eq_ok_iff.1 h).infrastructure?_eq) r es

end Repository

namespace Roster

variable {f : Factory} {s : Roster} {used : Nat} {r : Repository}

lemma Shorthand.boundTo_of_blank {w : Shorthand} (h : w.blank f used = .ok r) :
    r.BoundTo f.infrastructure := by
  cases w with
  | mavenLocal =>
    obtain ⟨r, hr, rfl⟩ := map_eq_ok.1 h
    obtain ⟨url, rfl⟩ := Factory.exists_url_of_mavenLocal hr
    exact Repository.boundTo_of_eq rfl
  | flatDir =>
    cases h
    nofun
  | mavenCentral | maven | ivy =>
    cases h
    exact Repository.boundTo_of_eq rfl

lemma Shorthand.boundTo_of_build {w : Shorthand} {m : Properties}
    (h : (w.build f m used).1 = .ok r) : r.BoundTo f.infrastructure := by
  obtain ⟨blank, hblank, hall⟩ := build_eq_ok_iff.1 h
  have hkept := Repository.infrastructure?_of_configureEntries blank m.entries
  rw [hall.configureEntries_eq] at hkept
  exact (boundTo_of_blank hblank).congr hkept

/-! ### Operations -/

lemma Request.boundTo_of_result {q : Request} (hq : ∀ r, q ≠ .existing r)
    (h : (q.result f used).1 = .ok r) : r.BoundTo f.infrastructure := by
  cases q with
  | build w m => exact Shorthand.boundTo_of_build h
  | existing r => exact absurd rfl (hq r)
  | resolver name =>
    cases h
    nofun
  | refused e => cases h

/-- The finished repository that an operation hands over, if it is one that does. -/
def Operation.handed? : Operation → Option Repository
  | .add (.repository r) => some r
  | .add _ | .shorthand .. | .declare _ => none

lemma Request.ofDraft_ne_existing {draft : Draft} (h : ∀ r, draft ≠ .repository r)
    (r : Repository) : ofDraft draft ≠ .existing r := by
  cases draft with
  | value v => exact ofValue_ne_existing v r
  | resolver name => nofun
  | repository r => exact absurd rfl (h r)

lemma Operation.request_ne_existing {op : Operation} (h : op.handed? = none) (r : Repository) :
    op.request ≠ .existing r := by
  cases op with
  | shorthand w m => nofun
  | declare entry => exact Request.ofEntry_ne_existing entry r
  | add draft =>
    refine Request.ofDraft_ne_existing ?_ r
    rintro r rfl
    cases h

theorem boundTo_of_run {op : Operation} (hop : op.handed? = none) (h : (s.run f op).1 = .ok r) :
    r.BoundTo f.infrastructure := by
  obtain ⟨built, hbuilt, hsettled, -⟩ := run_eq_ok (Prod.ext h rfl)
  have hbound := Request.boundTo_of_result (Operation.request_ne_existing hop) hbuilt
  rw [hsettled.eq_withName]
  exact hbound.congr (Repository.infrastructure?_withName r.name built)

end Roster

end Depot
