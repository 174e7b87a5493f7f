import Depot.Proofs.Result
import Depot.RepositoriesFile.Basic

/-!
# Locators of hosts

The environment of a host sets up a locator if all of it is Unicode (`Host.Legible`), and panics at
the first variable that is not (`Host.Garbled`). Of the files, a locator of a host knows nothing.
-/

namespace Depot

namespace Host

variable {h : Host}

/-- All variables are Unicode. -/
def Legible (h : Host) : Prop :=
  ∀ v ∈ h.environment, v.isUnicode = true

instance (h : Host) : Decidable h.Legible :=
  List.decidableBAll (fun v : Variable => v.isUnicode = true) h.environment

/-- A variable is not Unicode, and no variable before it. -/
def Garbled (h : Host) (v : Variable) : Prop :=
  ∃ before after, h.environment = before ++ v :: after ∧ v.isUnicode = false ∧
    ∀ u ∈ before, u.isUnicode = true

lemma find?_eq_none_iff : h.environment.find? (!·.isUnicode) = none ↔ h.Legible := by
  rw [List.find?_eq_none]
  simp [Legible]

lemma find?_eq_some_iff {v : Variable} :
    h.environment.find? (!·.isUnicode) = some v ↔ h.Garbled v := by
  rw [List.find?_eq_some_iff_append]
  simp only [Bool.not_eq_true', Bool.not_not]
  constructor
  · rintro ⟨hv, before, after, henvironment, hbefore⟩
    exact ⟨before, after, henvironment, hv, hbefore⟩
  · rintro ⟨before, after, henvironment, hv, hbefore⟩
    exact ⟨hv, before, after, henvironment, hbefore⟩

lemma Garbled.readTexts_eq {v : Variable} (hv : h.Garbled v) :
    h.readTexts = .error (.notUnicode v) := by
  rw [readTexts, find?_eq_some_iff.2 hv]

lemma Legible.readTexts_eq (hh : h.Legible) : h.readTexts = .ok h.texts := by
  rw [readTexts, find?_eq_none_iff.2 hh]

lemma legible_or_garbled (h : Host) : h.Legible ∨ ∃ v, h.Garbled v := by
  cases hfind : h.environment.find? (!·.isUnicode) with
  | none => exact .inl (find?_eq_none_iff.1 hfind)
  | some v => exact .inr ⟨v, find?_eq_some_iff.1 hfind⟩

lemma Garbled.not_legible {v : Variable} (hv : h.Garbled v) : ¬ h.Legible := by
  intro hh
  have htexts := hh.readTexts_eq
  rw [hv.readTexts_eq] at htexts
  cases htexts

end Host

lemma Locator.ofHost_of_legible {h : Host} (hh : h.Legible) :
    Locator.ofHost h = .ok (.ofVariables h h.texts) := by
  rw [Locator.ofHost, hh.readTexts_eq]
  rfl

namespace RepositoriesFile

variable {f : RepositoriesFile} {h : Host} {directory : Path} {l : Locator} {g : Factory}

lemma settingsFiles_configure (f : RepositoriesFile) (l : Locator) :
    (f.configure l).settingsFiles = l.settingsFiles := by
  rw [configure]
  cases f.localRepository <;> rfl

lemma locator_eq_ok_iff :
    f.locator h = .ok l ↔ h.Legible ∧ l = f.configure (.ofVariables h h.texts) := by
  rcases h.legible_or_garbled with hh | ⟨v, hv⟩
  · rw [locator, Locator.ofHost_of_legible hh]
    simp [Except.map, hh, eq_comm]
  · rw [locator, Locator.ofHost, hv.readTexts_eq]
    simp [Except.map, hv.not_legible]

lemma exists_locator_iff (f : RepositoriesFile) : (∃ l, f.locator h = .ok l) ↔ h.Legible := by
  simp [locator_eq_ok_iff]

lemma factory_eq_ok_iff : f.factory h directory = .ok g ↔
    ∃ l, f.locator h = .ok l ∧ g = f.factoryWith h directory l := by
  rw [factory, map_eq_ok]
  simp only [eq_comm]

lemma factory_of_garbled {v : Variable} (hv : h.Garbled v) :
    f.factory h directory = .error (.notUnicode v) := by
  rw [factory, locator, Locator.ofHost, hv.readTexts_eq]
  rfl

/-- The override of a repositories file is the location that the file has, or else the one in the
environment. -/
lemma override_of_locator (hl : f.locator h = .ok l) :
    l.override = f.localRepository.or (h.environment? "MAVEN_REPO_LOCAL") := by
  obtain ⟨-, rfl⟩ := locator_eq_ok_iff.1 hl
  rw [configure]
  cases f.localRepository <;> rfl

end RepositoriesFile

end Depot
