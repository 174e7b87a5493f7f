import Depot.Proofs.Command.Loading
import Depot.Proofs.Roster.Directories
import Mathlib

/-!
# Nothing depends on the working directory later

The working directory has a part in loading alone. However the file is named, and whatever base
directory it gives, the factory has an absolute one, so that all paths that are resolved afterwards
are absolute.
-/

namespace Depot

namespace Command

variable {h : Host} {file : Option Path} {f : RepositoriesFile} {g : Factory}

lemma isAbsolute_base_of_loadFactory (hcwd : h.workingDirectory.IsAbsolute)
    (hload : loadFactory h file = .ok (f, g)) : g.base.isAbsolute = true := by
  obtain ⟨directory, l, hf, rfl⟩ := exists_begins hload
  obtain ⟨p, -, hdirectory⟩ := hf.loads
  exact f.isAbsolute_baseIn (isAbsolute_of_directoryOf hcwd hdirectory)

/-- The factory of a run has an absolute base directory. After any operations that are written as
data, the directories of all flat directory repositories are absolute. The local repository has a
URL wherever it is located, and whatever fails for want of it fails in the words of the locator. -/
theorem loadFactory_absolute (hcwd : h.workingDirectory.IsAbsolute)
    (hload : loadFactory h file = .ok (f, g)) :
    g.base.isAbsolute = true ∧
      (∀ ops : List Roster.Operation, (∀ op ∈ ops, op.IsData) → ∀ used r,
        .flatDir r ∈ (Roster.runAll g ops { used }).declared → ∀ d ∈ r.dirs, d.isAbsolute = true) ∧
      (∀ (s : Roster) (op : Roster.Operation) message,
        (s.run g op).1 = .error (.localRepositoryUnavailable message) →
          g.locate s.used = .error message) ∧
      ∀ used, (∀ location, g.locate used = .ok location → ∃ r, (g.mavenLocal used).1 = .ok r ∧
          r.url = some (Factory.directoryUrl (g.base.join location))) ∧
        ∀ e, (g.mavenLocal used).1 = .error e →
          ∃ message, g.locate used = .error message ∧ e = .localRepositoryUnavailable message := by
  have hbase := isAbsolute_base_of_loadFactory hcwd hload
  refine ⟨hbase, ?_, ?_, fun used => ⟨?_, ?_⟩⟩
  · intro ops hops used r hr
    exact (Roster.anchored_runAll hbase hops used _ hr).2
  · intro s op message hrun
    exact Roster.locate_of_run_unavailable hbase hrun
  · intro location hlocate
    rw [Roster.mavenLocal_of_isAbsolute hbase, hlocate]
    exact ⟨_, rfl, rfl⟩
  · intro e he
    rw [Roster.mavenLocal_of_isAbsolute hbase] at he
    cases hlocate : g.locate used with
    | ok location =>
      rw [hlocate] at he
      cases he
    | error message =>
      rw [hlocate] at he
      cases he
      exact ⟨message, rfl, rfl⟩

/-- A host with a file that gives a relative base directory, and a relative location. The home
directory is that of the account. -/
def hostWithBase : Host where
  files := FileSystem.empty.addFile (FileSystem.positionOf ⟨"/work/sub/r"⟩) "baseDir: b".toUTF8
  workingDirectory := .standing ⟨"/work"⟩
  environment := [⟨"MAVEN_REPO_LOCAL", "m2", true⟩, ⟨"HOME", "", true⟩]
  accountHome := some ⟨"/home"⟩

lemma ofHost_hostWithBase : ∃ l : Locator,
    Locator.ofHost hostWithBase = .ok l ∧ l.override = some "m2" :=
  ⟨_, Locator.ofHost_of_legible (by decide), rfl⟩

lemma expand_m2 (l : Locator) : l.expand "m2" = .ok "m2" := by
  have hcut : Placeholder.cut "m2".toList = [.plain 'm', .plain '2'] := by cbv
  rw [Locator.expand, Placeholder.expand, hcut]
  rfl

lemma locate_of_override_m2 {l : Locator} (hl : l.override = some "m2") (h : Host) :
    l.locate h = .ok ⟨"m2"⟩ := by
  rw [Locator.locate, hl]
  dsimp only
  rw [expand_m2]
  rfl

/-- The file is named by a relative path as well; without a name, the base is below the home
directory of the account. -/
theorem loadFactory_absolute_relative :
    hostWithBase.workingDirectory.IsAbsolute ∧
    (∃ f g, loadFactory hostWithBase (some ⟨"sub/r"⟩) = .ok (f, g) ∧ g.base = ⟨"/work/sub/b"⟩ ∧
      (∀ r, .flatDir r ∈ (Roster.runAll g
          [.declare (.object [("flatDir", .object [("dir", .string "a")])])] {}).declared →
        ∀ d ∈ r.dirs, d.isAbsolute = true) ∧
      ∃ r, (g.mavenLocal 0).1 = .ok r ∧
        r.url = some (Factory.directoryUrl (g.base.join ⟨"m2"⟩))) ∧
    ∃ f g, loadFactory hostWithBase none = .ok (f, g) ∧ g.base = ⟨"/home/.config/quarry"⟩ ∧
      ∃ r, (g.mavenLocal 0).1 = .ok r ∧
        r.url = some (Factory.directoryUrl (g.base.join ⟨"m2"⟩)) := by
  obtain ⟨l, hl, hoverride⟩ := ofHost_hostWithBase
  have hlocate := locate_of_override_m2 hoverride hostWithBase
  have hnamed : Begins hostWithBase (some ⟨"sub/r"⟩) { baseDir := some ⟨"b"⟩ } ⟨"/work/sub"⟩ l :=
    ⟨⟨_, .read (.named _) rfl (by cbv), by decide⟩, by rw [RepositoriesFile.locator, hl]; rfl⟩
  have hdefault : Begins hostWithBase none {} ⟨"/home/.config/quarry"⟩ l :=
    ⟨⟨_, .missing rfl rfl, by decide⟩, by rw [RepositoriesFile.locator, hl]; rfl⟩
  have hcwd : hostWithBase.workingDirectory.IsAbsolute :=
    WorkingDirectory.isAbsolute_standing rfl
  have hload := loadFactory_of_begins hnamed
  have hload' := loadFactory_of_begins hdefault
  obtain ⟨-, hdirs, -, hlocal⟩ := loadFactory_absolute hcwd hload
  obtain ⟨-, -, -, hlocal'⟩ := loadFactory_absolute hcwd hload'
  have hdata : ∀ op ∈ [Roster.Operation.declare
      (.object [("flatDir", .object [("dir", .string "a")])])], op.IsData := by
    simp [Roster.Operation.IsData]
  refine ⟨hcwd,
    ⟨_, _, hload, rfl, hdirs _ hdata 0, (hlocal 0).1 ⟨"m2"⟩ ?_⟩,
    _, _, hload', rfl, (hlocal' 0).1 ⟨"m2"⟩ ?_⟩
  · rw [RepositoriesFile.factoryWith, hlocate]
    rfl
  · rw [RepositoriesFile.factoryWith, hlocate]
    rfl

end Command

end Depot
