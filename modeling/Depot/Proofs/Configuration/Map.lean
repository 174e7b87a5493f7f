import Depot.Proofs.Configuration.Shape

/-!
# Configuration by a whole map

A repository is configured by the assignments of a map one after another. All of them happen if
every entry is assignable on the kind (`exists_assignedAll_iff`); otherwise the configuration stops
at the first entry that is not, and the failure names it (`Stopped`).
-/

namespace Depot

section Configurable

variable {R : Type} [Configurable R] {r s t : R} {p : String} {v : Json}
  {es : List (String × Json)}

lemma configureEntries_cons_of_ok (h : setProperty r p v = .ok s) :
    configureEntries r ((p, v) :: es) = configureEntries s es := by
  rw [configureEntries, h]

lemma configureEntries_cons_of_error {e : Failure} (h : setProperty r p v = .error e) :
    configureEntries r ((p, v) :: es) = (r, some e) := by
  rw [configureEntries, h]

lemma configureEntries_cons_eq_ok_iff : configureEntries r ((p, v) :: es) = (t, none) ↔
    ∃ s, Configurable.assign r p v = .ok s ∧ configureEntries s es = (t, none) := by
  cases h : setProperty r p v with
  | ok s =>
    rw [configureEntries_cons_of_ok h, mapError_eq_ok.1 h]
    simp
  | error e =>
    obtain ⟨reason, hassign, -⟩ := mapError_eq_error.1 h
    rw [configureEntries_cons_of_error h, hassign]
    simp

/-- A part of a repository that no assignment touches stays as it is, however far the configuration
gets. -/
lemma configureEntries_keeps {α : Type} (part : R → α)
    (hkeep : ∀ {r t : R} {p : String} {v : Json}, Configurable.assign r p v = .ok t →
      part t = part r) (r : R) (es : List (String × Json)) :
    part (configureEntries r es).1 = part r := by
  induction es generalizing r with
  | nil => rfl
  | cons e rest ih =>
    obtain ⟨p, v⟩ := e
    cases h : setProperty r p v with
    | ok s => rw [configureEntries_cons_of_ok h, ih, hkeep (mapError_eq_ok.1 h)]
    | error e => rw [configureEntries_cons_of_error h]

/-- A part of a repository that one property sets and no other touches is what the map gives for
that property, and stays what it was if the map gives nothing. -/
lemma part_of_configureEntries {α : Type} (part : R → α) (Given : Json → α → Prop) {key : String}
    (hkey : ∀ {r t : R} {v : Json}, Configurable.assign r key v = .ok t → Given v (part t))
    (hother : ∀ {r t : R} {p : String} {v : Json}, Configurable.assign r p v = .ok t → p ≠ key →
      part t = part r)
    (h : configureEntries r es = (t, none)) (hes : (es.map Prod.fst).Nodup) :
    (∀ v, (key, v) ∈ es → Given v (part t)) ∧ ((∀ v, (key, v) ∉ es) → part t = part r) := by
  induction es generalizing r with
  | nil =>
    cases h
    simp
  | cons e rest ih =>
    obtain ⟨p, v⟩ := e
    obtain ⟨s, hs, h⟩ := configureEntries_cons_eq_ok_iff.1 h
    obtain ⟨hp, hrest⟩ := List.nodup_cons.1 hes
    obtain ⟨ihmem, ihnot⟩ := ih h hrest
    constructor
    · intro w hw
      rcases List.mem_cons.1 hw with heq | hw
      · cases heq
        have hnot : ∀ v, (key, v) ∉ rest := fun v hv => hp (List.mem_map.2 ⟨_, hv, rfl⟩)
        rw [ihnot hnot]
        exact hkey hs
      · exact ihmem w hw
    · intro hnot
      have hne : p ≠ key := by
        rintro rfl
        exact hnot v List.mem_cons_self
      rw [ihnot fun w hw => hnot w (List.mem_cons_of_mem _ hw), hother hs hne]

end Configurable

namespace Repository

variable {r s t : Repository} {p : String} {v : Json} {es : List (String × Json)} {m : Properties}

/-! ### One property -/

lemma setProperty_eq_ok_iff : setProperty r p v = .ok t ↔ r.Assigned p v t := by
  rw [setProperty, mapError_eq_ok]
  exact assign_eq_ok_iff

lemma setProperty_eq_error {e : Failure} (h : setProperty r p v = .error e) :
    ¬ r.kind.Assignable p v ∧ ∃ reason, e = .propertyAssignment p r.displayName reason := by
  constructor
  · rw [← exists_assigned_iff]
    rintro ⟨t, ht⟩
    rw [setProperty_eq_ok_iff.2 ht] at h
    cases h
  · obtain ⟨reason, -, rfl⟩ := mapError_eq_error.1 h
    exact ⟨reason, rfl⟩

/-! ### All properties of a map -/

/-- What assigning some properties one after another makes of a repository. -/
inductive AssignedAll : Repository → List (String × Json) → Repository → Prop where
  | nil (r : Repository) : AssignedAll r [] r
  | cons {r s t : Repository} {p : String} {v : Json} {rest : List (String × Json)}
      (h : r.Assigned p v s) (hrest : AssignedAll s rest t) : AssignedAll r ((p, v) :: rest) t

/-- A configuration that got as far as a repository and was ended there by an entry that is not
assignable. -/
inductive Stopped (r : Repository) (es : List (String × Json)) (t : Repository) :
    Failure → Prop where
  | at {before after : List (String × Json)} {p : String} {v : Json} (reason : Reason)
      (hes : es = before ++ (p, v) :: after) (hbefore : AssignedAll r before t)
      (h : ¬ r.kind.Assignable p v) : Stopped r es t (.propertyAssignment p t.displayName reason)

lemma AssignedAll.kind_eq (h : r.AssignedAll es t) : t.kind = r.kind := by
  induction h with
  | nil => rfl
  | cons h _ ih => rw [ih, h.kind_eq]

lemma AssignedAll.configureEntries_eq (h : r.AssignedAll es t) :
    configureEntries r es = (t, none) := by
  induction h with
  | nil => rfl
  | cons h _ ih => rw [configureEntries_cons_of_ok (setProperty_eq_ok_iff.2 h), ih]

lemma Stopped.cons {e : Failure} (h : r.Assigned p v s) (hs : Stopped s es t e) :
    Stopped r ((p, v) :: es) t e := by
  cases hs with
  | «at» reason hes hbefore hnot =>
    refine .at reason (by rw [hes, List.cons_append]) (.cons h hbefore) ?_
    rwa [← h.kind_eq]

/-- A configuration either assigns everything or is stopped. -/
lemma configureEntries_spec (r : Repository) (es : List (String × Json)) :
    (∃ t, configureEntries r es = (t, none) ∧ r.AssignedAll es t) ∨
      ∃ t e, configureEntries r es = (t, some e) ∧ Stopped r es t e := by
  induction es generalizing r with
  | nil => exact .inl ⟨r, rfl, .nil r⟩
  | cons f rest ih =>
    obtain ⟨p, v⟩ := f
    cases h : setProperty r p v with
    | error e =>
      obtain ⟨hnot, reason, rfl⟩ := setProperty_eq_error h
      exact .inr ⟨r, _, configureEntries_cons_of_error h, .at reason rfl (.nil r) hnot⟩
    | ok s =>
      have hs := setProperty_eq_ok_iff.1 h
      rcases ih s with ⟨t, ht, hall⟩ | ⟨t, e, ht, hstop⟩
      · exact .inl ⟨t, (configureEntries_cons_of_ok h).trans ht, .cons hs hall⟩
      · exact .inr ⟨t, e, (configureEntries_cons_of_ok h).trans ht, hstop.cons hs⟩

lemma configured_eq_ok_iff : configured r m = .ok t ↔ r.AssignedAll m.entries t := by
  constructor
  · intro h
    rcases configureEntries_spec r m.entries with ⟨u, hu, hall⟩ | ⟨u, e, hu, -⟩
    · rw [configured, configure, hu] at h
      cases h
      exact hall
    · rw [configured, configure, hu] at h
      cases h
  · intro h
    rw [configured, configure, h.configureEntries_eq]

lemma configured_eq_error {e : Failure} (h : configured r m = .error e) :
    ∃ t, Stopped r m.entries t e := by
  rcases configureEntries_spec r m.entries with ⟨u, hu, -⟩ | ⟨u, e', hu, hstop⟩
  · rw [configured, configure, hu] at h
    cases h
  · rw [configured, configure, hu] at h
    cases h
    exact ⟨u, hstop⟩

/-- Everything can be assigned exactly when each entry can. -/
theorem exists_assignedAll_iff :
    (∃ t, r.AssignedAll es t) ↔ ∀ e ∈ es, r.kind.Assignable e.1 e.2 := by
  constructor
  · rintro ⟨t, h⟩
    induction h with
    | nil => simp
    | cons h _ ih =>
      rw [List.forall_mem_cons]
      refine ⟨(exists_assigned_iff _).1 ⟨_, h⟩, ?_⟩
      rwa [← h.kind_eq]
  · intro h
    induction es generalizing r with
    | nil => exact ⟨r, .nil r⟩
    | cons f rest ih =>
      obtain ⟨hf, hrest⟩ := List.forall_mem_cons.1 h
      obtain ⟨s, hs⟩ := (exists_assigned_iff r).2 hf
      obtain ⟨t, ht⟩ := ih (r := s) (by rwa [hs.kind_eq])
      exact ⟨t, .cons hs ht⟩

/-! ### One part of a repository -/

/-- The name is what the map has for it, and stays what it was if the map has nothing. -/
lemma AssignedAll.name_eq (h : r.AssignedAll es t) (hes : (es.map Prod.fst).Nodup) :
    (∀ v, ("name", v) ∈ es → v = .string t.name) ∧
      ((∀ v, ("name", v) ∉ es) → t.name = r.name) :=
  part_of_configureEntries name (fun v name => v = .string name)
    (fun h => (assign_eq_ok_iff.1 h).name_eq.1 rfl) (fun h => (assign_eq_ok_iff.1 h).name_eq.2)
    h.configureEntries_eq hes

/-- The credentials are what the map gives for them, and stay what they were if the map gives
none. -/
lemma AssignedAll.credentials_eq (h : r.AssignedAll es t) (hes : (es.map Prod.fst).Nodup) :
    (∀ v, ("credentials", v) ∈ es → ∃ fields c, v = .object fields ∧
      (Properties.ofList fields).Gives c ∧ t.credentials? = some c) ∧
      ((∀ v, ("credentials", v) ∉ es) → t.credentials? = r.credentials?) :=
  part_of_configureEntries credentials?
    (fun v c? => ∃ fields c, v = .object fields ∧ (Properties.ofList fields).Gives c ∧ c? = some c)
    (fun h => (assign_eq_ok_iff.1 h).credentials_eq.1 rfl)
    (fun h => (assign_eq_ok_iff.1 h).credentials_eq.2) h.configureEntries_eq hes

end Repository

/-! ### Repositories of one kind -/

/-- A type whose values are the repositories of one kind. -/
class OneKind (R : Type) [Configurable R] where
  kind : Kind
  wrap : R → Repository
  wrap_injective : Function.Injective wrap
  kind_wrap (r : R) : (wrap r).kind = kind
  displayName_wrap (r : R) : (wrap r).displayName = Configurable.displayName r
  assign_wrap (r : R) (p : String) (v : Json) :
    (wrap r).assign p v = (Configurable.assign r p v).map wrap

instance : OneKind MavenRepository where
  kind := .maven
  wrap := .maven
  wrap_injective _ _ := Repository.maven.inj
  kind_wrap _ := rfl
  displayName_wrap _ := rfl
  assign_wrap _ _ _ := rfl

instance : OneKind IvyRepository where
  kind := .ivy
  wrap := .ivy
  wrap_injective _ _ := Repository.ivy.inj
  kind_wrap _ := rfl
  displayName_wrap _ := rfl
  assign_wrap _ _ _ := rfl

instance : OneKind FlatDirRepository where
  kind := .flatDir
  wrap := .flatDir
  wrap_injective _ _ := Repository.flatDir.inj
  kind_wrap _ := rfl
  displayName_wrap _ := rfl
  assign_wrap _ _ _ := rfl

namespace Repository

section OneKind

variable {R : Type} [Configurable R] [OneKind R]

open OneKind (wrap)

lemma setProperty_wrap (r : R) (p : String) (v : Json) :
    setProperty (wrap r) p v = (setProperty r p v).map wrap := by
  have hassign : Configurable.assign (wrap r) p v = (Configurable.assign r p v).map wrap :=
    OneKind.assign_wrap r p v
  have hdisplay : Configurable.displayName (wrap r) = Configurable.displayName r :=
    OneKind.displayName_wrap r
  rw [setProperty, setProperty, hassign, hdisplay]
  cases Configurable.assign r p v <;> rfl

lemma configureEntries_wrap (r : R) (es : List (String × Json)) :
    configureEntries (wrap r) es =
      (wrap (configureEntries r es).1, (configureEntries r es).2) := by
  induction es generalizing r with
  | nil => rfl
  | cons f rest ih =>
    obtain ⟨p, v⟩ := f
    cases h : setProperty r p v with
    | ok s =>
      have hs : setProperty (wrap r) p v = .ok (wrap s) := by rw [setProperty_wrap, h, Except.map]
      rw [configureEntries_cons_of_ok h, configureEntries_cons_of_ok hs, ih]
    | error e =>
      have he : setProperty (wrap r) p v = .error e := by rw [setProperty_wrap, h, Except.map]
      rw [configureEntries_cons_of_error h, configureEntries_cons_of_error he]

/-- Configuring a repository of one kind is configuring it as a repository of any kind. -/
lemma configured_wrap (r : R) (m : Properties) :
    configured (wrap r) m = (configured r m).map wrap := by
  rw [configured, configured, configure, configure, configureEntries_wrap]
  cases configureEntries r m.entries with
  | mk t e => cases e <;> rfl

end OneKind

lemma configured_maven (r : MavenRepository) (m : Properties) :
    configured (maven r) m = (configured r m).map .maven :=
  configured_wrap r m

lemma configured_ivy (r : IvyRepository) (m : Properties) :
    configured (ivy r) m = (configured r m).map .ivy :=
  configured_wrap r m

lemma configured_flatDir (r : FlatDirRepository) (m : Properties) :
    configured (flatDir r) m = (configured r m).map .flatDir :=
  configured_wrap r m

end Repository

lemma configure_eq_ok_iff_configured {R : Type} [Configurable R] {r t : R} {m : Properties} :
    configure r m = (t, none) ↔ configured r m = .ok t := by
  rw [configured]
  obtain ⟨u, (_ | e)⟩ := configure r m <;> simp

/-- A map can be applied exactly when each of its entries can be assigned on the kind. -/
theorem exists_configure_iff {R : Type} [Configurable R] [OneKind R] (r : R) {m : Properties} :
    (∃ t, configure r m = (t, none)) ↔
      ∀ e ∈ m.entries, (OneKind.kind R).Assignable e.1 e.2 := by
  have hwrap : (∃ t, configured r m = .ok t) ↔
      ∃ t, configured (OneKind.wrap r) m = .ok t := by
    simp only [Repository.configured_wrap, map_eq_ok]
    constructor
    · rintro ⟨t, ht⟩
      exact ⟨_, t, ht, rfl⟩
    · rintro ⟨_, t, ht, -⟩
      exact ⟨t, ht⟩
  simp only [configure_eq_ok_iff_configured, hwrap, Repository.configured_eq_ok_iff,
    Repository.exists_assignedAll_iff, OneKind.kind_wrap]

end Depot
