import Depot.Proofs.Configuration.Fields
import Depot.Proofs.Roster.Outcome

/-!
# Repositories made from property maps

What a factory creates from a property map, and what a shorthand declares with one, are the fresh
repository with the map applied to it field by field. Which order the entries stand in has no part
in it (`configure_by_lookup`).
-/

namespace Depot

namespace Repository

variable {r t : Repository} {m : Properties}

/-- What some entries make of a Maven or an Ivy repository. -/
inductive Configured : Repository → List (String × Json) → Repository → Prop where
  | maven {r t : MavenRepository} {es : List (String × Json)} (h : r.Configured es t) :
      Configured (.maven r) es (.maven t)
  | ivy {r t : IvyRepository} {es : List (String × Json)} (h : r.Configured es t) :
      Configured (.ivy r) es (.ivy t)

lemma configured_eq_ok_iff_of_kind (hr : r.kind = .maven ∨ r.kind = .ivy) :
    configured r m = .ok t ↔ m.Assignable r.kind ∧ r.Configured m.entries t := by
  cases r with
  | maven r =>
    simp only [configured_maven, map_eq_ok, ← configure_eq_ok_iff_configured,
      MavenRepository.configure_eq_ok_iff]
    constructor
    · rintro ⟨t, ⟨hm, h⟩, rfl⟩
      exact ⟨hm, .maven h⟩
    · rintro ⟨hm, h⟩
      cases h with
      | maven h => exact ⟨_, ⟨hm, h⟩, rfl⟩
  | ivy r =>
    simp only [configured_ivy, map_eq_ok, ← configure_eq_ok_iff_configured,
      IvyRepository.configure_eq_ok_iff]
    constructor
    · rintro ⟨t, ⟨hm, h⟩, rfl⟩
      exact ⟨hm, .ivy h⟩
    · rintro ⟨hm, h⟩
      cases h with
      | ivy h => exact ⟨_, ⟨hm, h⟩, rfl⟩
  | flatDir | custom => simp [kind] at hr

end Repository

namespace Roster

variable {f : Factory} {s : Roster} {w : Shorthand} {m : Properties} {blank : Repository}

lemma create_object (f : Factory) (fields : List (String × Json)) (used : Nat) :
    (f.create (.value (.object fields)) used).1 =
      configured (.maven (f.maven used).1) (Properties.ofList fields) := by
  rw [create_eq]
  rfl

lemma Shorthand.declare_configured (hw : w.kind = .maven ∨ w.kind = .ivy)
    (hblank : w.blank f s.used = .ok blank) (hm : m.Assignable w.kind) :
    ∃ built, blank.Configured m.entries built ∧
      w.declare f m s = enter { s with used := s.used + w.holders } built (m.contains "name") := by
  have hkind : blank.kind = w.kind := kind_of_blank hblank
  obtain ⟨built, hall⟩ := Repository.exists_assignedAll_iff.2 (hkind ▸ hm)
  have hbuilt := Repository.configured_eq_ok_iff.2 hall
  refine ⟨built, ((Repository.configured_eq_ok_iff_of_kind (hkind ▸ hw)).1 hbuilt).2, ?_⟩
  exact declare_eq_of_ok ((build_of_blank hblank).trans hbuilt)

lemma Shorthand.declare_unassignable (hblank : w.blank f s.used = .ok blank)
    (hm : ¬ m.Assignable w.kind) : ∃ key target reason, w.declare f m s =
      (.error (.propertyAssignment key target reason), { s with used := s.used + w.holders }) := by
  cases hconf : configured blank m with
  | ok t =>
    have hall := Repository.exists_assignedAll_iff.1 ⟨t, Repository.configured_eq_ok_iff.1 hconf⟩
    rw [kind_of_blank hblank] at hall
    exact absurd hall hm
  | error e =>
    obtain ⟨t, ⟨reason, -, -, -⟩⟩ := Repository.configured_eq_error hconf
    exact ⟨_, _, _, declare_eq_of_error ((build_of_blank hblank).trans hconf)⟩

/-- Configuration by a property map. A Maven or an Ivy repository takes the whole map exactly if the
table of its kind has all keys, with shapes that admit the values. It then is what each field's key
stands for in the map, or what the field was if the key is missing, whatever the repository held.

So a factory creates a repository of a map exactly if it could apply the map to a fresh Maven
repository, and creates just this. A shorthand with the map enters what the map makes of the
repository that the shorthand starts from, or fails by an assignment and declares nothing. -/
theorem configure_by_lookup (f : Factory) (m : Properties) :
    (∀ r : MavenRepository, ((∃ t, configure r m = (t, none)) ↔ m.Assignable .maven) ∧
      ∀ t, configure r m = (t, none) ↔ m.Assignable .maven ∧ r.Configured m.entries t) ∧
    (∀ r : IvyRepository, ((∃ t, configure r m = (t, none)) ↔ m.Assignable .ivy) ∧
      ∀ t, configure r m = (t, none) ↔ m.Assignable .ivy ∧ r.Configured m.entries t) ∧
    (∀ fields used r, Properties.ofList fields = m →
      ((f.create (.value (.object fields)) used).1 = .ok r ↔
        m.Assignable .maven ∧ Repository.Configured (.maven (f.maven used).1) m.entries r)) ∧
    ∀ (w : Shorthand) s blank, w.kind = .maven ∨ w.kind = .ivy → w.blank f s.used = .ok blank →
      (m.Assignable w.kind → ∃ built, blank.Configured m.entries built ∧
        w.declare f m s =
          enter { s with used := s.used + w.holders } built (m.contains "name")) ∧
      (¬ m.Assignable w.kind → ∃ key target reason, w.declare f m s =
        (.error (.propertyAssignment key target reason),
          { s with used := s.used + w.holders })) := by
  refine ⟨fun r => ⟨exists_configure_iff r, fun t => MavenRepository.configure_eq_ok_iff⟩,
    fun r => ⟨exists_configure_iff r, fun t => IvyRepository.configure_eq_ok_iff⟩, ?_, ?_⟩
  · rintro fields used r rfl
    rw [create_object]
    exact Repository.configured_eq_ok_iff_of_kind (.inl rfl)
  · intro w s blank hw hblank
    exact ⟨Shorthand.declare_configured hw hblank, Shorthand.declare_unassignable hblank⟩

end Roster

end Depot
