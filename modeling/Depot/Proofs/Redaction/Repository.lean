import Depot.Command.Fault
import Depot.Proofs.Configuration.Map
import Depot.Proofs.Redaction.Value

/-!
# Redaction of repositories

A repository is redacted in its credentials. Assigning a redacted value to a redacted repository
makes the redacted result (`Repository.Assigned.redact`), and a configuration that fails does so
before and after with the same exit code (`configured_redacts`).
-/

namespace Depot

/-- A repository with the password hidden. -/
def MavenRepository.redact (r : MavenRepository) : MavenRepository :=
  { r with credentials := r.credentials.redact }

/-- A repository with the password hidden. -/
def IvyRepository.redact (r : IvyRepository) : IvyRepository :=
  { r with credentials := r.credentials.redact }

/-- A repository with the password hidden, for the kinds that have one. -/
def Repository.redact : Repository → Repository
  | .maven r => .maven r.redact
  | .ivy r => .ivy r.redact
  | .flatDir r => .flatDir r
  | .custom r => .custom r

/-- The code that a run ends with on a failure. -/
def Failure.exitCode (e : Failure) : Nat :=
  (Command.Fault.ofFailure e).exitCode

/-! ### Assignments -/

section Assigned

variable {p : String} {v : Json}

lemma MavenRepository.Assigned.redact {r t : MavenRepository} (h : r.Assigned p v t) :
    r.redact.Assigned p (Json.redactField false p v) t.redact := by
  cases h with
  | name s =>
    rw [Json.redactField_string (by decide)]
    exact .name s
  | url s =>
    rw [Json.redactField_string (by decide)]
    exact .url s
  | artifactUrls h => exact .artifactUrls (h.redactField (by decide))
  | credentials h =>
    rw [Json.redactField_object]
    exact .credentials h.redact

lemma IvyRepository.Assigned.redact {r t : IvyRepository} (h : r.Assigned p v t) :
    r.redact.Assigned p (Json.redactField false p v) t.redact := by
  cases h with
  | name s =>
    rw [Json.redactField_string (by decide)]
    exact .name s
  | url s =>
    rw [Json.redactField_string (by decide)]
    exact .url s
  | layout l =>
    rw [Json.redactField_string (by decide)]
    exact .layout l
  | artifactPatterns hp h =>
    have hne : p ≠ "credentials" := by rcases hp with rfl | rfl <;> decide
    exact .artifactPatterns hp (h.redactField hne)
  | ivyPatterns hp h =>
    have hne : p ≠ "credentials" := by rcases hp with rfl | rfl <;> decide
    exact .ivyPatterns hp (h.redactField hne)
  | credentials h =>
    rw [Json.redactField_object]
    exact .credentials h.redact

lemma FlatDirRepository.Assigned.redactField {r t : FlatDirRepository} (h : r.Assigned p v t) :
    r.Assigned p (Json.redactField false p v) t := by
  cases h with
  | name s =>
    rw [Json.redactField_string (by decide)]
    exact .name s
  | dirs h => exact .dirs (h.redactField (by decide))
  | dir h => exact .dir (h.redactField (by decide))

end Assigned

namespace Repository

variable {r t : Repository} {p : String} {v : Json} {es : List (String × Json)}

@[simp] lemma kind_redact (r : Repository) : r.redact.kind = r.kind := by
  cases r <;> rfl

@[simp] lemma name_redact (r : Repository) : r.redact.name = r.name := by
  cases r <;> rfl

@[simp] lemma withName_redact (name : String) (r : Repository) :
    r.redact.withName name = (r.withName name).redact := by
  cases r <;> rfl

theorem Assigned.redact (h : r.Assigned p v t) :
    r.redact.Assigned p (Json.redactField false p v) t.redact := by
  cases h with
  | maven h => exact .maven h.redact
  | ivy h => exact .ivy h.redact
  | flatDir h => exact .flatDir h.redactField

lemma AssignedAll.redact (h : r.AssignedAll es t) :
    r.redact.AssignedAll (es.map fun e => (e.1, Json.redactField false e.1 e.2)) t.redact := by
  induction h with
  | nil r => exact .nil r.redact
  | cons h _ ih => exact .cons h.redact ih

end Repository

/-! ### Configurations -/

/-- Building a repository and building it with every password hidden: either both succeed, the
second with the repository redacted, or both fail with one exit code. -/
inductive Redacts : Except Failure Repository → Except Failure Repository → Prop where
  | ok (r : Repository) : Redacts (.ok r) (.ok r.redact)
  | error {e e' : Failure} (h : e.exitCode = e'.exitCode) : Redacts (.error e) (.error e')

lemma Redacts.bind {a b : Except Failure Repository}
    {next next' : Repository → Except Failure Repository} (h : Redacts a b)
    (hnext : ∀ r, Redacts (next r) (next' r.redact)) : Redacts (a.bind next) (b.bind next') := by
  cases h with
  | ok r => exact hnext r
  | error h => exact .error h

/-- No configuration is stopped with a code of its own. -/
lemma Repository.Stopped.exitCode_eq {r t : Repository} {es : List (String × Json)} {e : Failure}
    (h : r.Stopped es t e) : e.exitCode = 2 := by
  cases h
  rfl

theorem configured_redacts (r : Repository) (m : Properties) :
    Redacts (configured r m) (configured r.redact m.redact) := by
  cases h : configured r m with
  | ok t =>
    have ht := (Repository.configured_eq_ok_iff.1 h).redact
    rw [Repository.configured_eq_ok_iff (m := m.redact).2 ht]
    exact .ok t
  | error e =>
    cases h' : configured r.redact m.redact with
    | error e' =>
      obtain ⟨_, hstop⟩ := Repository.configured_eq_error h
      obtain ⟨_, hstop'⟩ := Repository.configured_eq_error h'
      exact .error (hstop.exitCode_eq.trans hstop'.exitCode_eq.symm)
    | ok u =>
      -- What is assignable after redaction was so before, and the first run could not have failed.
      have hall : ∀ f ∈ m.entries, r.kind.Assignable f.1 f.2 := by
        intro f hf
        have hu := Repository.exists_assignedAll_iff.1 ⟨u, Repository.configured_eq_ok_iff.1 h'⟩
        have hred := hu (f.1, Json.redactField false f.1 f.2) (List.mem_map.2 ⟨f, hf, rfl⟩)
        rw [Repository.kind_redact] at hred
        exact Kind.assignable_redactField_iff.1 hred
      obtain ⟨t, ht⟩ := Repository.exists_assignedAll_iff.2 hall
      rw [Repository.configured_eq_ok_iff.2 ht] at h
      cases h

end Depot
