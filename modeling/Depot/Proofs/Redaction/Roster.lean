import Depot.Proofs.Redaction.Repository
import Depot.Proofs.Roster.Request

/-!
# Redaction of rosters

Declaring an entry and declaring it with its passwords hidden, on a roster and on the same roster
with its passwords hidden, go the same way (`declare_redacts`), and so do whole lists of entries
(`declareAll_redacts`). No name depends on a password: redaction leaves the names of a roster as
they are.
-/

namespace Depot

/-- A factory that hands out redacted credentials. -/
def Factory.redact (f : Factory) : Factory :=
  { f with holder := fun n => (f.holder n).redact }

/-- A roster with every password hidden. -/
def Roster.redact (s : Roster) : Roster :=
  { s with declared := s.declared.map Repository.redact }

namespace Roster

variable {f : Factory} {s : Roster}

/-! ### Names -/

@[simp] lemma names_redact (s : Roster) : s.redact.names = s.names := by
  simp [names, redact, Function.comp_def]

lemma redact_push (s : Roster) (r : Repository) : (s.push r).redact = s.redact.push r.redact := by
  simp [redact, push]

lemma LeastFree.redact {base : String} {n : Nat} (h : s.LeastFree base n) :
    s.redact.LeastFree base n where
  two_le := h.two_le
  free := by
    rw [names_redact]
    exact h.free
  least := by
    rw [names_redact]
    exact h.least

lemma Settled.redact {r u : Repository} {explicit : Bool} (h : s.Settled r explicit u) :
    s.redact.Settled r.redact explicit u.redact := by
  cases h with
  | kept h =>
    refine .kept ?_
    rwa [Repository.name_redact, names_redact]
  | @renamed n hexplicit h hn =>
    have hrenamed : s.redact.Settled r.redact explicit
        (r.redact.withName (numbered r.redact.name n)) := by
      refine .renamed hexplicit ?_ ?_
      · rwa [Repository.name_redact, names_redact]
      · rw [Repository.name_redact]
        exact hn.redact
    rwa [Repository.name_redact, Repository.withName_redact] at hrenamed

/-! ### Building -/

namespace Shorthand

lemma blank_redacts (w : Shorthand) (f : Factory) (used : Nat) :
    Redacts (w.blank f used) (w.blank f.redact used) := by
  cases w with
  | mavenCentral | maven | ivy => exact .ok _
  | flatDir => exact .ok (.flatDir f.flatDir)
  | mavenLocal =>
    have hlocate : f.redact.locate = f.locate := rfl
    simp only [blank, Factory.mavenLocal, hlocate]
    cases f.locate used with
    | error message => exact .error rfl
    | ok location =>
      have hurl : f.redact.localUrl location = f.localUrl location := rfl
      simp only [hurl]
      cases f.localUrl location with
      | error e => exact .error rfl
      | ok url => exact .ok _

lemma build_redacts (w : Shorthand) (f : Factory) (m : Properties) (used : Nat) :
    Redacts (w.build f m used).1 (w.build f.redact m.redact used).1 :=
  (w.blank_redacts f used).bind fun r => configured_redacts r m

end Shorthand

/-! ### Requests -/

namespace Request

/-- What redaction makes of the request of an entry. -/
inductive Redacts : Request → Request → Prop where
  | build (w : Shorthand) (m : Properties) : Redacts (.build w m) (.build w m.redact)
  | refused {e e' : Failure} (h : e.exitCode = e'.exitCode) : Redacts (.refused e) (.refused e')

lemma redact_urlOnly (url : String) : (urlOnly url).redact = urlOnly url := by
  have hurl : Json.redactField false "url" (.string url) = .string url :=
    Json.redactField_string (by decide) url
  rw [Properties.redact, urlOnly, ← Properties.ofList_map, List.map_singleton, hurl]

lemma ofValue_redacts (v : Json) : Redacts (ofValue v) (ofValue v.redact) := by
  cases v with
  | string url =>
    have hbuild := Redacts.build .maven (urlOnly url)
    rwa [redact_urlOnly] at hbuild
  | object fields =>
    rw [Json.redact, Json.redactIn, ofValue, ofValue, Properties.ofList_redactFields]
    exact .build .maven (Properties.ofList fields)
  | null | bool | number | array => exact .refused rfl

lemma ofShorthand_redacts (w : Shorthand) (config : Json) :
    Redacts (ofShorthand w config) (ofShorthand w config.redact) := by
  cases config with
  | null => exact .build w .empty
  | object fields =>
    rw [Json.redact, Json.redactIn, ofShorthand, ofShorthand, Properties.ofList_redactFields]
    exact .build w (Properties.ofList fields)
  | bool | number | string | array => exact .refused rfl

/-- No shorthand is spelled like the key of credentials. -/
lemma ne_credentials_of_ofText? {key : String} {w : Shorthand}
    (h : Shorthand.ofText? key = some w) : key ≠ "credentials" := by
  rintro rfl
  have hnone : Shorthand.ofText? "credentials" = none := by decide
  rw [hnone] at h
  cases h

theorem ofEntry_redacts (entry : Json) : Redacts (ofEntry entry) (ofEntry entry.redact) := by
  cases entry with
  | string t =>
    by_cases hc : t = "mavenCentral"
    · subst hc
      exact .build .mavenCentral .empty
    · by_cases hl : t = "mavenLocal"
      · subst hl
        exact .build .mavenLocal .empty
      · rw [show (Json.string t).redact = .string t from rfl, ofEntry_string hc hl]
        exact ofValue_redacts (.string t)
  | object fields =>
    have hvalue := ofValue_redacts (.object fields)
    have hentries : (Properties.ofList (Json.redactFields false fields)).entries =
        (Properties.ofList fields).entries.map fun e => (e.1, Json.redactField false e.1 e.2) := by
      rw [Properties.ofList_redactFields]
      rfl
    rw [Json.redact, Json.redactIn] at hvalue ⊢
    simp only [ofEntry, hentries]
    cases (Properties.ofList fields).entries with
    | nil => exact hvalue
    | cons e rest =>
      obtain ⟨key, config⟩ := e
      cases rest with
      | cons => exact hvalue
      | nil =>
        simp only [List.map_cons, List.map_nil]
        cases hw : Shorthand.ofText? key with
        | none => exact hvalue
        | some w =>
          rw [Json.redactField_of_ne (ne_credentials_of_ofText? hw)]
          exact ofShorthand_redacts w config
  | null | bool | number | array => exact .refused rfl

end Request

/-! ### Declaring -/

/-- A declaration and the declaration with every password hidden: the same answer up to redaction,
and the same roster up to redaction. -/
def DeclaredAlike (o o' : Except Failure Repository × Roster) : Prop :=
  Redacts o.1 o'.1 ∧ o'.2 = o.2.redact

lemma enter_redacts (s : Roster) (r : Repository) (explicit : Bool) :
    DeclaredAlike (s.enter r explicit) (s.redact.enter r.redact explicit) := by
  cases h : s.enter r explicit with
  | mk result t =>
    cases result with
    | ok u =>
      obtain ⟨hsettled, rfl⟩ := enter_eq_ok_iff.1 h
      rw [enter_eq_ok_iff.2 ⟨hsettled.redact, rfl⟩]
      exact ⟨.ok u, (redact_push s u).symm⟩
    | error e =>
      obtain ⟨⟨hexplicit, htaken⟩, rfl, rfl⟩ := enter_eq_error_iff.1 h
      have htaken' : r.redact.name ∈ t.redact.names := by
        rwa [Repository.name_redact, names_redact]
      rw [enter_eq_error_iff.2 ⟨⟨hexplicit, htaken'⟩, rfl, rfl⟩]
      exact ⟨.error rfl, rfl⟩

lemma enterResult_redacts {a b : Except Failure Repository} (h : Redacts a b) (s : Roster)
    (explicit : Bool) (used : Nat) :
    DeclaredAlike (s.enterResult explicit (a, used)) (s.redact.enterResult explicit (b, used)) := by
  cases h with
  | ok r => exact enter_redacts { s with used } r explicit
  | error h => exact ⟨.error h, rfl⟩

lemma Request.Redacts.run {q q' : Request} (h : Redacts q q') (f : Factory) (s : Roster) :
    DeclaredAlike (q.run f s) (q'.run f.redact s.redact) := by
  cases h with
  | build w m =>
    rw [Request.run, Request.run, explicit, explicit, Properties.redact,
      Properties.contains_mapValues]
    exact enterResult_redacts (w.build_redacts f m s.used) s _ _
  | refused h => exact ⟨.error h, rfl⟩

theorem declare_redacts (f : Factory) (entry : Json) (s : Roster) :
    DeclaredAlike (s.declare f entry) (s.redact.declare f.redact entry.redact) := by
  rw [declare_eq, declare_eq]
  exact (Request.ofEntry_redacts entry).run f s

/-- A run over entries, and the run with every password hidden. -/
inductive RunAlike : Except Failure Unit × Roster → Except Failure Unit × Roster → Prop where
  | ok (s : Roster) : RunAlike (.ok (), s) (.ok (), s.redact)
  | error {e e' : Failure} {s t : Roster} (h : e.exitCode = e'.exitCode) :
      RunAlike (.error e, s) (.error e', t)

theorem declareAll_redacts (f : Factory) (entries : List Json) (s : Roster) :
    RunAlike (declareAll f entries s)
      (declareAll f.redact (entries.map Json.redact) s.redact) := by
  induction entries generalizing s with
  | nil => exact .ok s
  | cons entry rest ih =>
    obtain ⟨hanswer, hroster⟩ := declare_redacts f entry s
    rw [declareAll, List.map_cons, declareAll]
    generalize s.declare f entry = o at hanswer hroster ⊢
    generalize s.redact.declare f.redact entry.redact = o' at hanswer hroster ⊢
    obtain ⟨answer, t⟩ := o
    obtain ⟨answer', t'⟩ := o'
    obtain rfl : t' = t.redact := hroster
    cases hanswer with
    | ok r => exact ih t
    | error h => exact .error h

end Roster

end Depot
