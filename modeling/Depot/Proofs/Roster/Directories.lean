import Depot.Proofs.Roster.Distinct
import Depot.Proofs.Roster.Entries

/-!
# Absolute directories

A directory is resolved against the base directory when it is added. If that is absolute, so is
every directory of a flat directory repository, in whatever way it was added, and the local
repository has a URL wherever it is.
-/

namespace Depot

/-! ### Repositories -/

/-- A flat directory repository with absolute paths only; the other kinds hold none. -/
def Repository.Anchored : Repository → Prop
  | .flatDir r => r.base.isAbsolute = true ∧ ∀ d ∈ r.dirs, d.isAbsolute = true
  | .maven _ | .ivy _ | .custom _ => True

namespace FlatDirRepository

lemma anchored_dir {r : FlatDirRepository} (h : (Repository.flatDir r).Anchored) (p : Path) :
    (Repository.flatDir (r.dir p)).Anchored := by
  obtain ⟨hbase, hdirs⟩ := h
  refine ⟨hbase, fun d hd => ?_⟩
  simp only [dir, addPath] at hd
  split_ifs at hd
  · exact hdirs d hd
  · rcases List.mem_append.1 hd with hd | hd
    · exact hdirs d hd
    · rw [List.mem_singleton.1 hd]
      exact Path.isAbsolute_join hbase p

lemma anchored_addDirs {r : FlatDirRepository} (h : (Repository.flatDir r).Anchored)
    (ps : List Path) : (Repository.flatDir (r.addDirs ps)).Anchored := by
  induction ps generalizing r with
  | nil => exact h
  | cons p ps ih => exact ih (anchored_dir h p)

lemma anchored_setDirs {r : FlatDirRepository} (h : (Repository.flatDir r).Anchored)
    (ps : List Path) : (Repository.flatDir (r.setDirs ps)).Anchored :=
  anchored_addDirs (r := { r with dirs := [] }) ⟨h.1, nofun⟩ ps

end FlatDirRepository

namespace Repository

variable {r t : Repository} {p : String} {v : Json} {es : List (String × Json)}

lemma Assigned.anchored (h : r.Assigned p v t) (hr : r.Anchored) : t.Anchored := by
  cases h with
  | maven | ivy => trivial
  | flatDir h =>
    cases h with
    | name => exact hr
    | dirs => exact FlatDirRepository.anchored_setDirs hr _
    | dir => exact FlatDirRepository.anchored_addDirs hr _

lemma AssignedAll.anchored (h : r.AssignedAll es t) (hr : r.Anchored) : t.Anchored := by
  induction h with
  | nil => exact hr
  | cons h _ ih => exact ih (h.anchored hr)

lemma Anchored.withName (h : r.Anchored) (name : String) : (r.withName name).Anchored := by
  cases r with
  | flatDir r => exact h
  | maven | ivy | custom => trivial

end Repository

namespace Roster

variable {f : Factory} {s t : Roster} {w : Shorthand} {m : Properties} {used : Nat}

/-! ### What a factory builds -/

lemma Shorthand.anchored_of_build (hbase : f.base.isAbsolute = true) {r : Repository}
    (h : (w.build f m used).1 = .ok r) : r.Anchored := by
  obtain ⟨blank, hblank, hall⟩ := build_eq_ok_iff.1 h
  refine hall.anchored ?_
  cases w with
  | flatDir =>
    cases hblank
    exact ⟨hbase, by simp [Factory.flatDir, FlatDirRepository.fresh]⟩
  | mavenLocal =>
    obtain ⟨r, -, rfl⟩ := map_eq_ok.1 hblank
    trivial
  | mavenCentral | maven | ivy =>
    cases hblank
    trivial

/-- Below an absolute base directory, building the local repository fails as its locator does. -/
lemma mavenLocal_of_isAbsolute (hbase : f.base.isAbsolute = true) (used : Nat) :
    (f.mavenLocal used).1 =
      match f.locate used with
      | .ok location =>
        .ok { (f.maven used).1 with url := some (Factory.directoryUrl (f.base.join location)) }
      | .error message => .error (.localRepositoryUnavailable message) := by
  rw [Factory.mavenLocal]
  cases f.locate used with
  | error message => rfl
  | ok location =>
    have hlocation := Path.isAbsolute_join hbase location
    simp only [Factory.localUrl, hlocation, if_true]
    rfl

lemma Shorthand.locate_of_unavailable (hbase : f.base.isAbsolute = true) {message : String}
    (h : (w.build f m used).1 = .error (.localRepositoryUnavailable message)) :
    f.locate used = .error message := by
  by_cases havailable : w.Available f used
  · by_cases hassignable : m.Assignable w.kind
    · obtain ⟨r, hbuild⟩ : ∃ r, (w.build f m used).1 = .ok r :=
        exists_build havailable hassignable
      rw [hbuild] at h
      cases h
    · obtain ⟨key, value, target, reason, -, -, hbuild⟩ := build_unassignable havailable hassignable
      rw [hbuild] at h
      cases h
  · simp only [Available, Classical.not_imp] at havailable
    obtain ⟨rfl, hlocal⟩ := havailable
    cases hlocate : f.locate used with
    | ok location => exact absurd ⟨location, hlocate, Path.isAbsolute_join hbase location⟩ hlocal
    | error message' =>
      rw [build, blank, mavenLocal_of_isAbsolute hbase, hlocate] at h
      cases h
      rfl

/-! ### Runs -/

/-- An operation that is written as data, so that no finished repository takes part in it. -/
def Operation.IsData : Operation → Prop
  | .add draft => ∃ v, draft = .value v
  | .shorthand _ _ | .declare _ => True

lemma Request.ofValue_ne_existing (v : Json) (r : Repository) : ofValue v ≠ .existing r := by
  cases v <;> exact nofun

lemma Request.ofShorthand_ne_existing (w : Shorthand) (v : Json) (r : Repository) :
    ofShorthand w v ≠ .existing r := by
  cases v <;> exact nofun

lemma Request.ofEntry_ne_existing (entry : Json) (r : Repository) : ofEntry entry ≠ .existing r := by
  unfold ofEntry
  split
  · nofun
  · nofun
  · split
    · split
      · exact ofShorthand_ne_existing _ _ r
      · exact ofValue_ne_existing _ r
    · exact ofValue_ne_existing _ r
  · exact ofValue_ne_existing _ r

lemma Operation.IsData.ne_existing {op : Operation} (h : op.IsData) (r : Repository) :
    op.request ≠ .existing r := by
  cases op with
  | shorthand w m => exact nofun
  | add draft =>
    obtain ⟨v, rfl⟩ := h
    exact Request.ofValue_ne_existing v r
  | declare entry => exact Request.ofEntry_ne_existing entry r

/-- All repositories in a roster hold absolute paths only. -/
def Anchored (s : Roster) : Prop :=
  ∀ r ∈ s.declared, r.Anchored

lemma Anchored.run (hbase : f.base.isAbsolute = true) {op : Operation} (hop : op.IsData)
    (hs : s.Anchored) : (s.run f op).2.Anchored := by
  have hext := run_extends f op s
  cases hrun : s.run f op with
  | mk result t =>
    rw [hrun] at hext
    cases result with
    | error e =>
      intro r hr
      rw [show t.declared = s.declared from hext] at hr
      exact hs r hr
    | ok u =>
      obtain ⟨built, hbuilt, hsettled, ht⟩ := run_eq_ok hrun
      have hanchored : built.Anchored := by
        cases hq : op.request with
        | build w m =>
          rw [hq] at hbuilt
          exact Shorthand.anchored_of_build hbase hbuilt
        | existing r => exact absurd hq (hop.ne_existing r)
        | resolver name =>
          rw [hq] at hbuilt
          cases hbuilt
          trivial
        | refused e =>
          rw [hq] at hbuilt
          cases hbuilt
      intro r hr
      rw [ht, List.mem_append, List.mem_singleton] at hr
      rcases hr with hr | rfl
      · exact hs r hr
      · rw [hsettled.eq_withName]
        exact hanchored.withName _

theorem anchored_runAll (hbase : f.base.isAbsolute = true) {ops : List Operation}
    (hops : ∀ op ∈ ops, op.IsData) (used : Nat) : (runAll f ops { used }).Anchored :=
  runAll_induction (fun op hop _ hs => hs.run hbase (hops op hop)) (by simp [Anchored])

lemma Operation.declined_of_refused {op : Operation} {e : Failure} (h : op.request = .refused e) :
    e.Declined := by
  cases op with
  | shorthand w m => cases h
  | add draft =>
    cases draft with
    | value v => exact Request.declined_of_ofValue h
    | resolver | repository => cases h
  | declare entry => exact Request.declined_of_ofEntry h

/-- Below an absolute base directory, an operation finds no local repository only if the locator
does not. -/
theorem locate_of_run_unavailable (hbase : f.base.isAbsolute = true) {op : Operation}
    {message : String} (h : (s.run f op).1 = .error (.localRepositoryUnavailable message)) :
    f.locate s.used = .error message := by
  rw [run_eq, Request.run] at h
  cases hresult : op.request.result f s.used with
  | mk result used =>
    rw [hresult] at h
    cases result with
    | ok r =>
      obtain ⟨-, he, -⟩ := enter_eq_error_iff.1 (Prod.ext h rfl)
      cases he
    | error e =>
      cases h
      cases hq : op.request with
      | build w m =>
        rw [hq] at hresult
        exact Shorthand.locate_of_unavailable hbase (congrArg Prod.fst hresult)
      | existing | resolver =>
        rw [hq] at hresult
        cases hresult
      | refused e =>
        rw [hq] at hresult
        cases hresult
        cases Operation.declined_of_refused hq

end Roster

end Depot
