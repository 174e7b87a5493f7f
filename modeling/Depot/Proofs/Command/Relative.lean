import Depot.Proofs.Command.Loading
import Depot.Proofs.FileSystem.Long
import Depot.Proofs.Roster.Rebased

/-!
# The ways to name a repositories file

A file that is named by a relative path means the same as one that is named from the root, and the
default file means the same when it is named. The directory of the file is written in another way
then, and that makes no difference to what is declared.
-/

namespace Depot

namespace Command

variable {h : Host} {p wd directory : Path} {f : RepositoriesFile} {g : Factory}

/-! ### The directory of a file -/

/-- The directory of a file is the same, however the file is named. -/
lemma directoryOf_join (hwd : h.workingDirectory = .standing wd) (habsolute : wd.isAbsolute = true)
    (hp : p.isAbsolute = false) (hne : Path.ofPieces (Path.pieces p.text.toList) ≠ [])
    (hdirectory : directoryOf h p = .ok directory) :
    ∃ directory', directoryOf h (wd.join p) = .ok directory' ∧ directory.Equiv directory' := by
  have hrelative : ¬ p.isAbsolute = true := by simp [hp]
  have hjoin := Path.isAbsolute_join habsolute p
  have hne' := Path.ofPieces_join_ne_nil hrelative hne wd
  rw [directoryOf_of_relative hp, hwd] at hdirectory
  cases hdirectory
  refine ⟨_, directoryOf_of_isAbsolute hjoin hne', ?_⟩
  rw [Path.Equiv, components_join_parentOf habsolute hp, (parentOf_of_isAbsolute hjoin hne').2,
    Path.components_join (Path.text_ne_empty habsolute) hrelative, List.dropLast_append_of_ne_nil hne]

/-! ### Loading -/

lemma load_of_chosen (hp : Chosen h none p) :
    RepositoriesFile.load h = RepositoriesFile.loadFrom h p := by
  cases hp with
  | found hp hholds =>
    rw [RepositoriesFile.load, hp]
    simp only [bind, Except.bind, hholds, if_true]

lemma load_of_loads (hf : Loads h none p f) : RepositoriesFile.load h = .ok f := by
  cases hf with
  | read hp htext hf =>
    rw [load_of_chosen hp, RepositoriesFile.loadFrom, htext]
    exact hf
  | missing hp hholds =>
    rw [RepositoriesFile.load, hp]
    simp only [bind, Except.bind, hholds]
    rfl

/-- The default file is loaded alike with a factory and without one, if a factory can be built. -/
lemma loadFactory_default (hadrift : ∀ e, ¬ Adrift h none e) (hpanics : ∀ v, ¬ Panics h none v) :
    (loadFactory h none).map Prod.fst = (RepositoriesFile.load h).mapError .failure := by
  cases hp : RepositoriesFile.defaultPath h with
  | error e =>
    rw [loadFactory, loadFile, repositoriesPath, RepositoriesFile.load, hp]
    rfl
  | ok p =>
    have hpath : repositoriesPath h none = .ok p := hp
    rcases begins_or_halts hpath with ⟨f, directory, l, hf⟩ | ⟨e, he⟩ | ⟨v, hv⟩
    · obtain ⟨p, hloads, -⟩ := hf.loads
      rw [loadFactory_of_begins hf, load_of_loads hloads]
      rfl
    · rw [loadFactory_of_fails he]
      cases he with
      | unreadable he =>
        obtain ⟨p, hp, htext⟩ := he
        rw [load_of_chosen hp, RepositoriesFile.loadFrom, htext]
        rfl
      | rejected he =>
        obtain ⟨p, text, hp, htext, hyaml⟩ := he
        rw [load_of_chosen hp, RepositoriesFile.loadFrom, htext]
        exact congrArg (Except.mapError Halt.failure) hyaml.symm
      | adrift he => exact absurd he (hadrift _)
    · exact absurd hv (hpanics v)

lemma loadFactory_default_of_holds (hp : RepositoriesFile.defaultPath h = .ok p)
    (hholds : h.holds p = true) : loadFactory h none = loadFactory h (some p) := by
  rw [loadFactory, loadFactory, loadFile_of_chosen (.found hp hholds),
    loadFile_of_chosen (.named p)]

/-- A file that is named by a relative path, and by the path joined to the working directory,
unless that is too long: the same file, base directories with the same components, and nothing that
is declared or located tells them apart but for the texts of paths. -/
theorem loadFactory_by_any_name (h : Host) :
    (∀ wd, h.Grounded wd → ∀ p f g, p.isAbsolute = false → loadFactory h (some p) = .ok (f, g) →
      (wd.join p).text.utf8ByteSize ≤ FileSystem.pathLimit →
      ∃ g', loadFactory h (some (wd.join p)) = .ok (f, g') ∧
        g' = g.rebase g'.base ∧ g.base.Equiv g'.base ∧
        (∀ s, (f.declareAll g s).1 = (f.declareAll g' s).1 ∧
          (f.declareAll g s).2.names = (f.declareAll g' s).2.names ∧
          List.Forall₂ Repository.Alike (f.declareAll g s).2.declared
            (f.declareAll g' s).2.declared) ∧
        ∀ used, g.mavenLocal used = g'.mavenLocal used) ∧
    ((∀ e, ¬ Adrift h none e) → (∀ v, ¬ Panics h none v) →
      (loadFactory h none).map Prod.fst = (RepositoriesFile.load h).mapError .failure) ∧
    ∀ p, RepositoriesFile.defaultPath h = .ok p → h.holds p = true →
      loadFactory h none = loadFactory h (some p) := by
  refine ⟨?_, loadFactory_default, fun p => loadFactory_default_of_holds⟩
  intro wd hh p f g hp hload hlen
  obtain ⟨directory, l, ⟨⟨_, hf, hdirectory⟩, hl⟩, rfl⟩ := exists_begins hload
  cases hf with
  | @read _ _ text _ hchosen htext hyaml =>
    cases hchosen
    obtain ⟨hempty, hne⟩ := FileSystem.ne_empty_of_readText htext
    have htext' : h.readText (wd.join p) = .ok text := by
      rw [hh.readText_join (by simp [hp]) hempty hlen, htext]
    obtain ⟨directory', hdirectory', hequiv⟩ :=
      directoryOf_join hh.standing hh.isAbsolute hp hne hdirectory
    have hload' : Begins h (some (wd.join p)) f directory' l :=
      ⟨⟨_, .read (.named _) htext' hyaml, hdirectory'⟩, hl⟩
    have hcwd : h.workingDirectory.IsAbsolute := by
      rw [hh.standing]
      exact WorkingDirectory.isAbsolute_standing hh.isAbsolute
    have hbase := f.isAbsolute_baseIn (isAbsolute_of_directoryOf hcwd hdirectory)
    have hequivBase : (f.baseIn directory).Equiv (f.baseIn directory') := by
      rw [RepositoriesFile.baseIn, RepositoriesFile.baseIn]
      cases f.baseDir with
      | none => exact hequiv
      | some base => exact hequiv.join base
    refine ⟨_, loadFactory_of_begins hload', rfl, hequivBase, fun s => ?_, fun used => ?_⟩
    · have hs : s.Alike s := ⟨rfl, List.forall₂_same.2 fun r _ => .same r⟩
      obtain ⟨hanswer, hroster⟩ := hs.declareAll (f := f.factoryWith h directory l) hbase hequivBase
        f.repositories
      exact ⟨hanswer, hroster.names_eq.symm, hroster.declared⟩
    · exact (Factory.mavenLocal_rebase (f := f.factoryWith h directory l) hbase hequivBase
        used).symm

/-- A host with a file below the working directory, and a default file. -/
def hostWithTwoFiles : Host where
  files := (FileSystem.empty.addFile ["work".toList, "sub".toList, "r".toList] "".toUTF8).addFile
    ["conf".toList, "quarry".toList, "repositories.yaml".toList] "".toUTF8
  workingDirectory := .standing ⟨"/work"⟩
  environment := [⟨"XDG_CONFIG_HOME", "/conf", true⟩]

lemma grounded_hostWithTwoFiles : hostWithTwoFiles.Grounded ⟨"/work"⟩ where
  standing := rfl
  isAbsolute := rfl
  leads := rfl
  noNul := by decide

/-- Where the file can be read, and its directory is known, the run begins. -/
lemma begins_hostWithTwoFiles (htext : hostWithTwoFiles.readText p = .ok "")
    (hdirectory : directoryOf hostWithTwoFiles p = .ok directory) :
    ∃ l, Begins hostWithTwoFiles (some p) {} directory l :=
  ⟨_, ⟨p, .read (.named p) htext rfl, hdirectory⟩,
    RepositoriesFile.locator_eq_ok_iff.2 ⟨by decide, rfl⟩⟩

theorem loadFactory_by_any_name_two_files : hostWithTwoFiles.Grounded ⟨"/work"⟩ ∧
    (∃ g g', loadFactory hostWithTwoFiles (some ⟨"./sub/r"⟩) = .ok ({}, g) ∧
      loadFactory hostWithTwoFiles (some ⟨"/work/./sub/r"⟩) = .ok ({}, g') ∧
      g.base = ⟨"/work/./sub"⟩ ∧ g.base.Equiv g'.base) ∧
    (loadFactory hostWithTwoFiles none).map Prod.fst = .ok {} ∧
    loadFactory hostWithTwoFiles none =
      loadFactory hostWithTwoFiles (some ⟨"/conf/quarry/repositories.yaml"⟩) := by
  obtain ⟨hnamed, hdefault, hnone⟩ := loadFactory_by_any_name hostWithTwoFiles
  have hdirectory : directoryOf hostWithTwoFiles ⟨"./sub/r"⟩ = .ok ⟨"/work/./sub"⟩ := by decide
  obtain ⟨l, hf⟩ := begins_hostWithTwoFiles rfl hdirectory
  have hload := loadFactory_of_begins hf
  obtain ⟨g', hload', -, hbase, -⟩ :=
    hnamed _ grounded_hostWithTwoFiles _ _ _ (by decide) hload (by decide)
  have hadrift : ∀ e, ¬ Adrift hostWithTwoFiles none e := by
    rintro e ⟨p, f, -, -, ⟨⟩⟩
  have hpanics : ∀ v, ¬ Panics hostWithTwoFiles none v := by
    rintro v ⟨p, f, directory, -, -, hgarbled⟩
    exact hgarbled.not_legible (by decide)
  refine ⟨grounded_hostWithTwoFiles, ⟨_, g', hload, hload', rfl, hbase⟩, ?_, hnone _ rfl rfl⟩
  rw [hdefault hadrift hpanics]
  rfl

/-! ### Where it makes a difference -/

lemma readText_detour {n : Nat} (hn : 2 * n + 5 ≤ FileSystem.pathLimit) :
    hostWithTwoFiles.readText (Path.detour n ⟨"sub/r"⟩) = .ok "" := by
  rw [Host.readText, FileSystem.readText, grounded_hostWithTwoFiles.standing,
    FileSystem.find_detour rfl (by decide) (by decide) (by decide) hn]
  rfl

lemma readText_join_detour {n : Nat} (hn : FileSystem.pathLimit < 2 * n + 11) :
    hostWithTwoFiles.readText (Path.join ⟨"/work"⟩ (Path.detour n ⟨"sub/r"⟩)) =
      .error .nameTooLong := by
  have hrelative := Path.isAbsolute_detour (p := ⟨"sub/r"⟩) (by decide) n
  have hnul := Path.nul_notMem_detour (p := ⟨"sub/r"⟩) (by decide) n
  have hjoin : Path.join ⟨"/work"⟩ (Path.detour n ⟨"sub/r"⟩) =
      ⟨"/work" ++ "/" ++ (Path.detour n ⟨"sub/r"⟩).text⟩ := by
    rw [Path.join, hrelative]
    rfl
  have hsize : (Path.join ⟨"/work"⟩ (Path.detour n ⟨"sub/r"⟩)).text.utf8ByteSize = 2 * n + 11 := by
    have hsix : ("/work" ++ "/").utf8ByteSize = 6 := rfl
    have hfive : (Path.mk "sub/r").text.utf8ByteSize = 5 := rfl
    rw [hjoin, String.utf8ByteSize_append, Path.utf8ByteSize_detour, hsix, hfive]
    omega
  rw [Host.readText, FileSystem.readText,
    FileSystem.find_of_long (Path.nul_notMem_join (by decide) hnul) (by rw [hsize]; exact hn)]

/-- The host with a variable that is not Unicode besides. -/
def garbledHost : Host :=
  { hostWithTwoFiles with
    environment := hostWithTwoFiles.environment ++ [⟨"FOO", "\uFFFD", false⟩] }

lemma panics_garbledHost : Panics garbledHost none ⟨"FOO", "\uFFFD", false⟩ := by
  have hfile : Loads garbledHost none ⟨"/conf/quarry/repositories.yaml"⟩ {} :=
    .read (.found rfl rfl) rfl rfl
  have hdirectory : directoryOf garbledHost ⟨"/conf/quarry/repositories.yaml"⟩ =
      .ok ⟨"/conf/quarry"⟩ := by decide
  exact ⟨_, _, _, hfile, hdirectory, _, [], rfl, rfl, by decide⟩

/-- The longest name that a path may have leads to a file, and the name of the same file from the
root is longer. With a variable that is not Unicode, the default file is loaded, but there is no
factory for it. -/
theorem loadFactory_of_long_name :
    let p := Path.detour 2045 ⟨"sub/r"⟩
    hostWithTwoFiles.Grounded ⟨"/work"⟩ ∧ p.isAbsolute = false ∧
      (∃ g, loadFactory hostWithTwoFiles (some p) = .ok ({}, g)) ∧
      loadFactory hostWithTwoFiles (some (Path.join ⟨"/work"⟩ p)) =
        .error (.failure (.io .nameTooLong)) ∧
      RepositoriesFile.load garbledHost = .ok {} ∧
      loadFactory garbledHost none = .error (.panic (.notUnicode ⟨"FOO", "\uFFFD", false⟩)) := by
  have hrelative := Path.isAbsolute_detour (p := ⟨"sub/r"⟩) (by decide) 2045
  refine ⟨grounded_hostWithTwoFiles, hrelative, ?_, ?_, rfl,
    loadFactory_of_panics panics_garbledHost⟩
  · obtain ⟨l, hf⟩ := begins_hostWithTwoFiles (readText_detour (n := 2045) (by decide))
      (directoryOf_of_relative hrelative)
    exact ⟨_, loadFactory_of_begins hf⟩
  · have htext := readText_join_detour (n := 2045) (by decide)
    exact loadFactory_of_fails (.unreadable ⟨_, .named _, htext⟩)

end Command

end Depot
