import Depot.Proofs.Roster.Request

/-!
# The outcome of a declaration

What an entry is answered with is decided by its shape, by the local repository, by the properties
of the kind and by the names in the roster, in this order. `Outcome` says which answer a shorthand
with a property map gets; an entry that describes a repository stands for one of these.
-/

namespace Depot

/-- Whether the local repository can be located and has a URL, for the next holder. -/
def Factory.HasLocal (f : Factory) (used : Nat) : Prop :=
  ∃ location, f.locate used = .ok location ∧ (f.base.join location).isAbsolute = true

/-- Whether every entry of a property map is assignable on a kind. -/
def Properties.Assignable (m : Properties) (k : Kind) : Prop :=
  ∀ e ∈ m.entries, k.Assignable e.1 e.2

namespace Roster

/-! ### Building -/

namespace Shorthand

/-- Whether the factory can begin with a repository of a shorthand. -/
def Available (w : Shorthand) (f : Factory) (used : Nat) : Prop :=
  w = .mavenLocal → f.HasLocal used

variable {w : Shorthand} {f : Factory} {used : Nat} {m : Properties}

lemma exists_blank (h : w.Available f used) : ∃ r, w.blank f used = .ok r := by
  cases w with
  | mavenLocal =>
    obtain ⟨location, hlocate, habsolute⟩ := h rfl
    rw [blank, Factory.mavenLocal, hlocate]
    dsimp only
    rw [Factory.localUrl, if_pos habsolute]
    exact ⟨_, rfl⟩
  | _ => exact ⟨_, rfl⟩

lemma blank_of_not_available (h : ¬ w.Available f used) :
    ∃ message, w.blank f used = .error (.localRepositoryUnavailable message) := by
  simp only [Available, Classical.not_imp] at h
  obtain ⟨rfl, hlocal⟩ := h
  rw [blank, Factory.mavenLocal]
  cases hlocate : f.locate used with
  | error message => exact ⟨message, rfl⟩
  | ok location =>
    have hrelative : ¬ (f.base.join location).isAbsolute = true := fun habsolute =>
      hlocal ⟨location, hlocate, habsolute⟩
    dsimp only
    rw [Factory.localUrl, if_neg hrelative]
    exact ⟨_, rfl⟩

lemma build_of_blank {r : Repository} (h : w.blank f used = .ok r) :
    (w.build f m used).1 = configured r m := by
  rw [build, h, Except.bind]

lemma build_unavailable (h : ¬ w.Available f used) :
    ∃ message, (w.build f m used).1 = .error (.localRepositoryUnavailable message) := by
  obtain ⟨message, hblank⟩ := blank_of_not_available h
  exact ⟨message, by rw [build, hblank, Except.bind]⟩

lemma build_unassignable (h : w.Available f used) (hm : ¬ m.Assignable w.kind) :
    ∃ key value target reason, (key, value) ∈ m.entries ∧ ¬ w.kind.Assignable key value ∧
      (w.build f m used).1 = .error (.propertyAssignment key target reason) := by
  obtain ⟨r, hr⟩ := exists_blank h
  rw [build_of_blank hr]
  cases hconf : configured r m with
  | ok t =>
    have hall := Repository.exists_assignedAll_iff.1 ⟨t, Repository.configured_eq_ok_iff.1 hconf⟩
    rw [kind_of_blank hr] at hall
    exact absurd hall hm
  | error e =>
    obtain ⟨t, hstop⟩ := Repository.configured_eq_error hconf
    cases hstop with
    | @«at» before after key value reason hes _ hnot =>
      rw [kind_of_blank hr] at hnot
      refine ⟨key, value, t.displayName, reason, ?_, hnot, rfl⟩
      rw [hes]
      exact List.mem_append_right _ List.mem_cons_self

lemma exists_build (h : w.Available f used) (hm : m.Assignable w.kind) :
    ∃ r, (w.build f m used).1 = .ok r := by
  obtain ⟨blank, hblank⟩ := exists_blank h
  rw [Properties.Assignable, ← kind_of_blank hblank, ← Repository.exists_assignedAll_iff] at hm
  obtain ⟨r, hr⟩ := hm
  exact ⟨r, build_eq_ok_iff.2 ⟨blank, hblank, hr⟩⟩

/-- A repository that was built of a shorthand is of its kind, and has the name of the map or else
the base of the shorthand. -/
lemma kind_and_name_of_build {r : Repository} (h : (w.build f m used).1 = .ok r) :
    r.kind = w.kind ∧ (∀ v, m.get? "name" = some v → v = .string r.name) ∧
      (m.get? "name" = none → r.name = w.base) := by
  obtain ⟨blank, hblank, hall⟩ := build_eq_ok_iff.1 h
  obtain ⟨hmem, hnot⟩ := hall.name_eq m.nodup_keys
  refine ⟨hall.kind_eq.trans (kind_of_blank hblank), ?_, ?_⟩
  · intro v hv
    exact hmem v (Properties.get?_eq_some_iff.1 hv)
  · intro hnone
    rw [← name_of_blank hblank]
    refine hnot fun v hv => ?_
    rw [← Properties.get?_eq_some_iff, hnone] at hv
    cases hv

end Shorthand

/-! ### Entering what was built -/

/-- How the answer to a shorthand with a property map is decided: by the local repository, then by
the properties of the kind, then by the given name, and otherwise it is the repository that was
built, under the given name or one that the roster settles. -/
structure Outcome (f : Factory) (s : Roster) (w : Shorthand) (m : Properties)
    (o : Except Failure Repository × Roster) : Prop where
  unavailable : ¬ w.Available f s.used →
    (∃ message, o.1 = .error (.localRepositoryUnavailable message)) ∧ o.2.declared = s.declared
  unassignable : w.Available f s.used → ¬ m.Assignable w.kind →
    (∃ key value target reason, (key, value) ∈ m.entries ∧ ¬ w.kind.Assignable key value ∧
      o.1 = .error (.propertyAssignment key target reason)) ∧ o.2.declared = s.declared
  duplicate : w.Available f s.used → m.Assignable w.kind → ∀ name,
    m.get? "name" = some (.string name) → name ∈ s.names →
      o.1 = .error (.duplicateRepository name) ∧ o.2.declared = s.declared
  declared : w.Available f s.used → m.Assignable w.kind →
    (∀ name, m.get? "name" = some (.string name) → name ∉ s.names) →
      ∃ built r, (w.build f m s.used).1 = .ok built ∧ built.kind = w.kind ∧
        r = built.withName r.name ∧ (∀ name, m.get? "name" = some (.string name) → r.name = name) ∧
        (m.get? "name" = none → built.name = w.base) ∧
        o.1 = .ok r ∧ o.2.declared = s.declared ++ [r]

variable {f : Factory} {s : Roster} {w : Shorthand} {m : Properties}

lemma Shorthand.declare_eq_of_error {e : Failure} (h : (w.build f m s.used).1 = .error e) :
    w.declare f m s = (.error e, { s with used := s.used + w.holders }) := by
  have hbuild : w.build f m s.used = (.error e, s.used + w.holders) := Prod.ext h rfl
  rw [Shorthand.declare_eq, hbuild]
  rfl

lemma Shorthand.declare_eq_of_ok {r : Repository} (h : (w.build f m s.used).1 = .ok r) :
    w.declare f m s = enter { s with used := s.used + w.holders } r (m.contains "name") := by
  have hbuild : w.build f m s.used = (.ok r, s.used + w.holders) := Prod.ext h rfl
  rw [Shorthand.declare_eq, hbuild]
  rfl

theorem Shorthand.outcome_declare (f : Factory) (s : Roster) (w : Shorthand) (m : Properties) :
    Outcome f s w m (w.declare f m s) where
  unavailable h := by
    obtain ⟨message, hbuild⟩ := build_unavailable h
    rw [declare_eq_of_error hbuild]
    exact ⟨⟨message, rfl⟩, rfl⟩
  unassignable h hm := by
    obtain ⟨key, value, target, reason, hmem, hnot, hbuild⟩ := build_unassignable h hm
    rw [declare_eq_of_error hbuild]
    exact ⟨⟨key, value, target, reason, hmem, hnot, rfl⟩, rfl⟩
  duplicate h hm name hname htaken := by
    obtain ⟨r, hr⟩ := exists_build h hm
    have hr' := (kind_and_name_of_build hr).2.1 _ hname
    cases hr'
    have hcontains : m.contains "name" = true := Properties.contains_iff.2 ⟨_, hname⟩
    rw [declare_eq_of_ok hr, hcontains,
      enter_of_given (s := { s with used := s.used + w.holders }) htaken]
    exact ⟨rfl, rfl⟩
  declared h hm hfree := by
    obtain ⟨built, hbuilt⟩ := exists_build h hm
    obtain ⟨hkind, hname, hbase⟩ := kind_and_name_of_build hbuilt
    rw [declare_eq_of_ok hbuilt]
    cases henter : enter { s with used := s.used + w.holders } built (m.contains "name") with
    | mk result t =>
      cases result with
      | ok r =>
        obtain ⟨hsettled, rfl⟩ := enter_eq_ok_iff.1 henter
        refine ⟨built, r, hbuilt, hkind, hsettled.eq_withName, ?_, hbase, rfl, rfl⟩
        intro name hgiven
        have hkept := hsettled.eq_of_explicit (Properties.contains_iff.2 ⟨_, hgiven⟩)
        have hstring := hname _ hgiven
        cases hstring
        rw [hkept]
      | error e =>
        obtain ⟨⟨hexplicit, htaken⟩, -, -⟩ := enter_eq_error_iff.1 henter
        obtain ⟨v, hv⟩ := Properties.contains_iff.1 hexplicit
        rw [hname v hv] at hv
        exact absurd htaken (hfree _ hv)

/-! ### Entries -/

lemma Shorthand.ofText?_text (w : Shorthand) : ofText? w.text = some w := by
  cases w <;> decide

lemma Shorthand.text_of_ofText? {key : String} (h : ofText? key = some w) : w.text = key := by
  simpa using List.find?_some h

/-- Which answer an entry gets. Null, a boolean, a number and an array describe nothing. A string is
one of two words or a URL. An object with a shorthand as its only key needs null or a map behind it,
and any other object is the map of a Maven repository. -/
theorem declare_outcome (f : Factory) (s : Roster) (entry : Json) :
    match entry with
    | .null | .bool _ | .number _ | .array _ =>
      s.declare f entry = (.error (.unsupportedDescriptor entry.compact), s)
    | .string t =>
      if t = "mavenCentral" then Outcome f s .mavenCentral .empty (s.declare f entry)
      else if t = "mavenLocal" then Outcome f s .mavenLocal .empty (s.declare f entry)
      else Outcome f s .maven (Properties.ofList [("url", .string t)]) (s.declare f entry)
    | .object fields =>
      (∀ (w : Shorthand) config, (Properties.ofList fields).entries = [(w.text, config)] →
        match config with
        | .null => Outcome f s w .empty (s.declare f entry)
        | .object inner => Outcome f s w (Properties.ofList inner) (s.declare f entry)
        | _ => ∃ message, s.declare f entry = (.error (.invalidConfig message), s)) ∧
      ((∀ (w : Shorthand) config, (Properties.ofList fields).entries ≠ [(w.text, config)]) →
        Outcome f s .maven (Properties.ofList fields) (s.declare f entry)) := by
  rw [declare_eq]
  cases entry with
  | null | bool | number | array => rfl
  | string t =>
    dsimp only
    split_ifs with hc hl
    · subst hc
      rw [show Request.ofEntry (.string "mavenCentral") = .build .mavenCentral .empty from rfl,
        Shorthand.run_build]
      exact Shorthand.outcome_declare f s .mavenCentral .empty
    · subst hl
      rw [show Request.ofEntry (.string "mavenLocal") = .build .mavenLocal .empty from rfl,
        Shorthand.run_build]
      exact Shorthand.outcome_declare f s .mavenLocal .empty
    · rw [Request.ofEntry_string hc hl, Request.ofValue, Shorthand.run_build]
      exact Shorthand.outcome_declare f s .maven _
  | object fields =>
    constructor
    · intro w config hentries
      have hentry : Request.ofEntry (.object fields) = Request.ofShorthand w config := by
        simp only [Request.ofEntry, hentries, Shorthand.ofText?_text]
      rw [hentry, Shorthand.run_ofShorthand]
      cases config with
      | null | object => exact Shorthand.outcome_declare f s w _
      | bool | number | string | array => exact ⟨_, rfl⟩
    · intro hother
      have hentry : Request.ofEntry (.object fields) = Request.ofValue (.object fields) := by
        rw [Request.ofEntry]
        split
        · next key config hentries =>
          split
          · next w hw =>
            rw [← Shorthand.text_of_ofText? hw] at hentries
            exact absurd hentries (hother w config)
          · rfl
        · rfl
      rw [hentry, Request.ofValue, Shorthand.run_build]
      exact Shorthand.outcome_declare f s .maven _

end Roster

end Depot
