import Depot.Proofs.Command.Directory
import Depot.Proofs.FileSystem.Walk
import Depot.Proofs.Locator.Source
import Depot.Proofs.Roster.Entries

/-!
# What the commands do with the repositories file

A run reads one file, or none if the default one is missing. It begins with that file and a locator
(`Begins`) unless loading fails (`LoadFails`) or the environment is not Unicode (`Panics`). After
that, one command declares the entries of the file, and the other locates the local repository;
either may fail.
-/

namespace Depot

namespace RepositoriesFile

/-- With a home directory, there is a default path. -/
lemma exists_defaultPath {h : Host} (hhome : h.home?.isSome = true) :
    ∃ p, defaultPath h = .ok p := by
  obtain ⟨home, hhome⟩ := Option.isSome_iff_exists.1 hhome
  rw [defaultPath, Host.configDirectory?, hhome]
  cases h.valueOf? "XDG_CONFIG_HOME" with
  | none => exact ⟨_, rfl⟩
  | some dir =>
    dsimp only
    split_ifs
    · exact ⟨_, rfl⟩
    · exact ⟨_, rfl⟩

/-- The default path has a last component. -/
lemma ofPieces_defaultPath_ne_nil {h : Host} {p : Path} (hp : defaultPath h = .ok p) :
    Path.ofPieces (Path.pieces p.text.toList) ≠ [] := by
  rw [defaultPath] at hp
  split at hp
  · cases hp
    exact Path.ofPieces_join_ne_nil (by decide) (by decide) _
  · cases hp

lemma ofYaml_eq_error {text : String} {e : Failure} (h : ofYaml text = .error e) :
    ∃ message, e = .serialization message := by
  obtain ⟨e, -, rfl⟩ := mapError_eq_error.1 h
  exact ⟨_, rfl⟩

lemma isAbsolute_baseIn (f : RepositoriesFile) {directory : Path}
    (hdirectory : directory.isAbsolute = true) : (f.baseIn directory).isAbsolute = true := by
  rw [baseIn]
  cases f.baseDir with
  | none => exact hdirectory
  | some base => exact Path.isAbsolute_join hdirectory base

end RepositoriesFile

namespace Command

lemma exists_repositoriesPath {h : Host} (hhome : h.home?.isSome = true) (file : Option Path) :
    ∃ p, repositoriesPath h file = .ok p := by
  cases file with
  | some p => exact ⟨p, rfl⟩
  | none => exact RepositoriesFile.exists_defaultPath hhome

/-! ### Loading -/

/-- The file that a run reads: the one that is named, or the default one if something is there. -/
inductive Chosen (h : Host) : Option Path → Path → Prop
  | named (p : Path) : Chosen h (some p) p
  | found {p : Path} (hp : RepositoriesFile.defaultPath h = .ok p) (hholds : h.holds p = true) :
      Chosen h none p

/-- The file of a run cannot be read as a text. -/
def Unreadable (h : Host) (file : Option Path) (e : FileError) : Prop :=
  ∃ p, Chosen h file p ∧ h.readText p = .error e

/-- The text in the file of a run is not that of a repositories file. -/
def Rejected (h : Host) (file : Option Path) (e : Failure) : Prop :=
  ∃ p text, Chosen h file p ∧ h.readText p = .ok text ∧ RepositoriesFile.ofYaml text = .error e

/-- What a run loads, and the path that it is loaded for. A default file that is missing counts as
an empty one. -/
inductive Loads (h : Host) : Option Path → Path → RepositoriesFile → Prop
  | read {file : Option Path} {p : Path} {text : String} {f : RepositoriesFile}
      (hp : Chosen h file p) (htext : h.readText p = .ok text)
      (hf : RepositoriesFile.ofYaml text = .ok f) : Loads h file p f
  | missing {p : Path} (hp : RepositoriesFile.defaultPath h = .ok p) (hholds : h.holds p = false) :
      Loads h none p {}

/-- The file of a run is loaded for a relative path, and the working directory was removed. -/
def Adrift (h : Host) (file : Option Path) (e : FileError) : Prop :=
  ∃ p f, Loads h file p f ∧ p.isAbsolute = false ∧ h.workingDirectory.path = .error e

/-- How loading fails. -/
inductive LoadFails (h : Host) (file : Option Path) : Failure → Prop
  | unreadable {e : FileError} (he : Unreadable h file e) : LoadFails h file (.io e)
  | rejected {e : Failure} (he : Rejected h file e) : LoadFails h file e
  | adrift {e : FileError} (he : Adrift h file e) : LoadFails h file (.io e)

/-- The file of a run is loaded, but a variable is not Unicode, the first one that is not. -/
def Panics (h : Host) (file : Option Path) (v : Variable) : Prop :=
  ∃ p f directory, Loads h file p f ∧ directoryOf h p = .ok directory ∧ h.Garbled v

/-- What a run begins with: the file that is loaded, the directory that holds it, and the locator
for it. -/
structure Begins (h : Host) (file : Option Path) (f : RepositoriesFile) (directory : Path)
    (l : Locator) : Prop where
  loads : ∃ p, Loads h file p f ∧ directoryOf h p = .ok directory
  locator : f.locator h = .ok l

variable {h h' : Host} {file : Option Path} {p directory : Path} {f f' : RepositoriesFile}
  {l : Locator} {e : Failure}

lemma loadFile_of_chosen (hp : Chosen h file p) : loadFile h file = do
    let f ← RepositoriesFile.loadFrom h p
    let directory ← directoryOf h p
    return (f, directory) := by
  cases hp with
  | named p => rfl
  | found hp hholds =>
    rw [loadFile, repositoriesPath, hp]
    simp only [bind, Except.bind, hholds]
    rfl

lemma loadFile_of_loads (hf : Loads h file p f) :
    loadFile h file = (directoryOf h p).map fun directory => (f, directory) := by
  cases hf with
  | read hp htext hf =>
    rw [loadFile_of_chosen hp, RepositoriesFile.loadFrom, htext]
    simp only [Except.mapError, bind, Except.bind, hf]
    rfl
  | missing hp hholds =>
    rw [loadFile, repositoriesPath, hp]
    simp only [bind, Except.bind, hholds]
    rfl

lemma loadFile_of_fails (he : LoadFails h file e) : loadFile h file = .error e := by
  cases he with
  | unreadable he =>
    obtain ⟨p, hp, htext⟩ := he
    rw [loadFile_of_chosen hp, RepositoriesFile.loadFrom, htext]
    rfl
  | rejected he =>
    obtain ⟨p, text, hp, htext, hyaml⟩ := he
    rw [loadFile_of_chosen hp, RepositoriesFile.loadFrom, htext]
    simp only [Except.mapError, bind, Except.bind, hyaml]
  | adrift he =>
    obtain ⟨p, f, hf, hp, hwd⟩ := he
    rw [loadFile_of_loads hf, directoryOf_of_relative hp, hwd]
    rfl

lemma loads_or_fails_of_chosen (hp : Chosen h file p) :
    (∃ f, Loads h file p f) ∨ ∃ e, LoadFails h file e := by
  cases htext : h.readText p with
  | error e => exact .inr ⟨_, .unreadable ⟨p, hp, htext⟩⟩
  | ok text =>
    cases hf : RepositoriesFile.ofYaml text with
    | error e => exact .inr ⟨e, .rejected ⟨p, text, hp, htext, hf⟩⟩
    | ok f => exact .inl ⟨f, .read hp htext hf⟩

lemma loads_or_fails (hp : repositoriesPath h file = .ok p) :
    (∃ f, Loads h file p f) ∨ ∃ e, LoadFails h file e := by
  cases file with
  | some q =>
    cases hp
    exact loads_or_fails_of_chosen (.named _)
  | none =>
    cases hholds : h.holds p with
    | true => exact loads_or_fails_of_chosen (.found hp hholds)
    | false => exact .inl ⟨{}, .missing hp hholds⟩

/-- What is loaded was read from the file that is chosen, or there is no default file. -/
lemma exists_loads (hload : loadFile h file = .ok (f, directory)) :
    ∃ p, Loads h file p f ∧ directoryOf h p = .ok directory := by
  cases hp : repositoriesPath h file with
  | error e =>
    rw [loadFile, hp] at hload
    cases hload
  | ok p =>
    rcases loads_or_fails hp with ⟨f', hf⟩ | ⟨e, he⟩
    · rw [loadFile_of_loads hf] at hload
      obtain ⟨directory', hdirectory, hload⟩ := map_eq_ok.1 hload
      cases hload
      exact ⟨p, hf, hdirectory⟩
    · rw [loadFile_of_fails he] at hload
      cases hload

/-! ### Beginning -/

lemma loadFactory_of_begins (hf : Begins h file f directory l) :
    loadFactory h file = .ok (f, f.factoryWith h directory l) := by
  obtain ⟨⟨p, hf, hdirectory⟩, hl⟩ := hf
  have hfactory : f.factory h directory = .ok (f.factoryWith h directory l) :=
    f.factory_eq_ok_iff.2 ⟨l, hl, rfl⟩
  rw [loadFactory, loadFile_of_loads hf, hdirectory]
  simp only [Except.map, Except.mapError, bind, Except.bind, hfactory]
  rfl

lemma loadFactory_of_fails (he : LoadFails h file e) :
    loadFactory h file = .error (.failure e) := by
  rw [loadFactory, loadFile_of_fails he]
  rfl

lemma loadFactory_of_panics {v : Variable} (hv : Panics h file v) :
    loadFactory h file = .error (.panic (.notUnicode v)) := by
  obtain ⟨p, f, directory, hf, hdirectory, hgarbled⟩ := hv
  rw [loadFactory, loadFile_of_loads hf, hdirectory]
  simp only [Except.map, Except.mapError, bind, Except.bind,
    RepositoriesFile.factory_of_garbled hgarbled]

lemma exists_begins {g : Factory} (hload : loadFactory h file = .ok (f, g)) :
    ∃ directory l, Begins h file f directory l ∧ g = f.factoryWith h directory l := by
  obtain ⟨⟨f', directory⟩, hfile, hload⟩ := bind_eq_ok.1 hload
  obtain ⟨g', hfactory, hload⟩ := bind_eq_ok.1 hload
  cases hload
  obtain ⟨l, hl, rfl⟩ := f.factory_eq_ok_iff.1 (mapError_eq_ok.1 hfactory)
  exact ⟨directory, l, ⟨exists_loads (mapError_eq_ok.1 hfile), hl⟩, rfl⟩

/-- The path that a file was loaded for has a last component. -/
lemma Loads.ofPieces_ne_nil (hf : Loads h file p f) :
    Path.ofPieces (Path.pieces p.text.toList) ≠ [] := by
  cases hf with
  | read hp htext hf => exact (FileSystem.ne_empty_of_readText htext).2
  | missing hp hholds => exact RepositoriesFile.ofPieces_defaultPath_ne_nil hp

/-- A run with a path for its file begins, fails to load the file or panics. -/
lemma begins_or_halts (hp : repositoriesPath h file = .ok p) :
    (∃ f directory l, Begins h file f directory l) ∨ (∃ e, LoadFails h file e) ∨
      ∃ v, Panics h file v := by
  rcases loads_or_fails hp with ⟨f, hf⟩ | hfails
  · rcases directoryOf_cases hf.ofPieces_ne_nil with ⟨directory, hdirectory⟩ | ⟨hp, e, hwd⟩
    · rcases h.legible_or_garbled with hh | ⟨v, hv⟩
      · exact .inl ⟨f, directory, _, ⟨p, hf, hdirectory⟩, f.locator_eq_ok_iff.2 ⟨hh, rfl⟩⟩
      · exact .inr (.inr ⟨v, p, f, directory, hf, hdirectory, hv⟩)
    · exact .inr (.inl ⟨_, .adrift ⟨p, f, hf, hp, hwd⟩⟩)
  · exact .inr (.inl hfails)

/-! ### Declaring the entries -/

/-- The entries of the file of a run are all declared. -/
def Declares (h : Host) (file : Option Path) (s : Roster) : Prop :=
  ∃ f directory l, Begins h file f directory l ∧
    Roster.DeclaresAll (f.factoryWith h directory l) {} f.repositories s

/-- An entry of the file of a run fails, the first one that does. -/
def EntryFails (h : Host) (file : Option Path) (e : Failure) : Prop :=
  ∃ f directory l, Begins h file f directory l ∧
    Roster.FirstFailure (f.factoryWith h directory l) {} f.repositories e

lemma resolve_of_begins (hf : Begins h file f directory l) : resolve h file =
    match f.declareAll (f.factoryWith h directory l) {} with
    | (.ok _, s) => .ok (s.declared.map Row.ofRepository)
    | (.error e, _) => .error (.failure e) := by
  rw [resolve, loadFactory_of_begins hf]
  simp only [bind, Except.bind]
  rfl

lemma resolve_of_declares {s : Roster} (hs : Declares h file s) :
    resolve h file = .ok (s.declared.map Row.ofRepository) := by
  obtain ⟨f, directory, l, hf, hall⟩ := hs
  rw [resolve_of_begins hf, RepositoriesFile.declareAll, Roster.declareAll_eq_ok_iff.2 hall]

/-- The rows that are listed are those of the repositories that the entries declare. -/
theorem resolve_eq_ok_iff {rows : List Row} : resolve h file = .ok rows ↔
    ∃ s, Declares h file s ∧ rows = s.declared.map Row.ofRepository := by
  constructor
  · intro hrows
    obtain ⟨⟨f, g⟩, hload, -⟩ := bind_eq_ok.1 hrows
    obtain ⟨directory, l, hf, -⟩ := exists_begins hload
    have hspec := Roster.declareAll_spec (f.factoryWith h directory l) f.repositories {}
    rw [resolve_of_begins hf, RepositoriesFile.declareAll] at hrows
    generalize Roster.declareAll _ _ _ = o at hspec hrows
    obtain ⟨(e | ⟨⟩), s⟩ := o
    · cases hrows
    · cases hrows
      exact ⟨s, ⟨f, directory, l, hf, hspec⟩, rfl⟩
  · rintro ⟨s, hs, rfl⟩
    exact resolve_of_declares hs

lemma resolve_of_entryFails (he : EntryFails h file e) :
    resolve h file = .error (.failure e) := by
  obtain ⟨f, directory, l, hf, hfirst⟩ := he
  have hall := Roster.declareAll_eq_error_iff.2 hfirst
  rw [resolve_of_begins hf, RepositoriesFile.declareAll]
  generalize Roster.declareAll _ _ _ = o at hall ⊢
  obtain ⟨result, s⟩ := o
  obtain rfl : result = .error e := hall
  rfl

lemma resolve_of_halt {e : Halt} (he : loadFactory h file = .error e) :
    resolve h file = .error e := by
  rw [resolve, he]
  rfl

lemma declares_or_fails (hf : Begins h file f directory l) :
    (∃ s, Declares h file s) ∨ ∃ e, EntryFails h file e := by
  have hspec := Roster.declareAll_spec (f.factoryWith h directory l) f.repositories {}
  generalize Roster.declareAll _ _ _ = o at hspec
  obtain ⟨(e | ⟨⟩), s⟩ := o
  · exact .inr ⟨e, f, directory, l, hf, hspec⟩
  · exact .inl ⟨s, f, directory, l, hf, hspec⟩

/-! ### Locating the local repository -/

/-- The local repository of a run is at a URL. -/
def Locates (h : Host) (file : Option Path) (url : String) : Prop :=
  ∃ f directory l location, Begins h file f directory l ∧ l.locate h = .ok location ∧
    url = Factory.directoryUrl ((f.baseIn directory).join location)

/-- The local repository of a run cannot be located. -/
def LocateFails (h : Host) (file : Option Path) (e : LocatorError) : Prop :=
  ∃ f directory l, Begins h file f directory l ∧ l.locate h = .error e

lemma localUrl_of_begins (hf : Begins h file f directory l) : localUrl h file =
    (((f.factoryWith h directory l).mavenLocal 0).1.map MavenRepository.url).mapError .failure := by
  rw [localUrl, loadFactory_of_begins hf]
  simp only [bind, Except.bind]
  cases ((f.factoryWith h directory l).mavenLocal 0).1 <;> rfl

lemma localUrl_of_halt {e : Halt} (he : loadFactory h file = .error e) :
    localUrl h file = .error e := by
  rw [localUrl, he]
  rfl

/-- The working directory is absolute, so the location that is found has a URL. -/
lemma localUrl_of_locates (hcwd : h.workingDirectory.IsAbsolute) {url : String}
    (hurl : Locates h file url) : localUrl h file = .ok (some url) := by
  obtain ⟨f, directory, l, location, hf, hlocate, rfl⟩ := hurl
  obtain ⟨p, -, hdirectory⟩ := hf.loads
  have hbase := f.isAbsolute_baseIn (isAbsolute_of_directoryOf hcwd hdirectory)
  have habsolute := Path.isAbsolute_join hbase location
  rw [localUrl_of_begins hf, Factory.mavenLocal, RepositoriesFile.factoryWith, hlocate]
  simp only [Except.mapError, Factory.localUrl, habsolute, if_true]
  rfl

lemma localUrl_of_locateFails {e : LocatorError} (he : LocateFails h file e) :
    localUrl h file = .error (.failure (.localRepositoryUnavailable e.message)) := by
  obtain ⟨f, directory, l, hf, hlocate⟩ := he
  rw [localUrl_of_begins hf, Factory.mavenLocal, RepositoriesFile.factoryWith, hlocate]
  rfl

lemma locates_or_fails (hf : Begins h file f directory l) :
    (∃ url, Locates h file url) ∨ ∃ e, LocateFails h file e := by
  cases hlocate : l.locate h with
  | error e => exact .inr ⟨e, f, directory, l, hf, hlocate⟩
  | ok location => exact .inl ⟨_, f, directory, l, location, hf, hlocate, rfl⟩

/-! ### The entries have no part in locating -/

/-- Two files with the same settings, whatever entries they have, show the local repository alike on
hosts that are the same but for files that the locator does not see. -/
lemma localUrl_congr {files : FileSystem} {entries : List Json}
    (hsettings : ∀ l, Locator.ofHost h = .ok l → ∀ q ∈ l.settingsFiles,
      h.holds q = Host.holds { h with files } q ∧ h.readText q = Host.readText { h with files } q)
    (hf : Loads h file p f)
    (hf' : Loads { h with files } file p { f with repositories := entries }) :
    localUrl { h with files } file = localUrl h file := by
  rcases directoryOf_cases hf.ofPieces_ne_nil with ⟨directory, hdirectory⟩ | ⟨hp, e, hwd⟩
  · rcases h.legible_or_garbled with hh | ⟨v, hv⟩
    · have hl := f.locator_eq_ok_iff.2 ⟨hh, rfl⟩
      have hlocate := Locator.locate_congr (l := f.configure (.ofVariables h h.texts)) fun q hq =>
        hsettings _ (Locator.ofHost_of_legible hh) q (by rwa [f.settingsFiles_configure] at hq)
      have hfactory : RepositoriesFile.factoryWith { f with repositories := entries }
          { h with files } directory (f.configure (.ofVariables h h.texts)) =
            f.factoryWith h directory (f.configure (.ofVariables h h.texts)) := by
        rw [RepositoriesFile.factoryWith, RepositoriesFile.factoryWith, hlocate]
        rfl
      rw [localUrl_of_begins ⟨⟨p, hf, hdirectory⟩, hl⟩,
        localUrl_of_begins ⟨⟨p, hf', hdirectory⟩, hl⟩, hfactory]
    · rw [localUrl_of_halt (loadFactory_of_panics ⟨p, _, _, hf, hdirectory, hv⟩),
        localUrl_of_halt (loadFactory_of_panics ⟨p, _, _, hf', hdirectory, hv⟩)]
  · rw [localUrl_of_halt (loadFactory_of_fails (.adrift ⟨p, _, hf, hp, hwd⟩)),
      localUrl_of_halt (loadFactory_of_fails (.adrift ⟨p, _, hf', hp, hwd⟩))]

end Command

end Depot
