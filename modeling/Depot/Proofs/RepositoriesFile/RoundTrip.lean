import Depot.Proofs.FileSystem.Write
import Depot.Proofs.RepositoriesFile.Text
import Depot.RepositoriesFile.Load
import Mathlib

/-!
# Saving and loading

A file that was read from a text, with integers as its only numbers, is saved to any path that can
be written, and loaded from there as the same file (`load_save`).
-/

namespace Depot.RepositoriesFile

/-- Saving a file and loading it again loses nothing. -/
theorem load_save {text : String} {f : RepositoriesFile} (hread : ofYaml text = .ok f)
    (hintegral : ∀ v ∈ f.repositories, v.isIntegral = true) {h : Host} {p : Path}
    (hwritable : ∃ text' h', h.writeText p text' = .ok h') :
    ∃ h', f.save h p = .ok h' ∧ loadFrom h' p = .ok f := by
  obtain ⟨h', hwrite, hread'⟩ := Host.readText_writeText hwritable f.toYaml
  have hstorable := fun v hv => storable_of_ofYaml hread v hv (hintegral v hv)
  refine ⟨h', mapError_eq_ok.2 hwrite, ?_⟩
  exact bind_eq_ok.2 ⟨f.toYaml, mapError_eq_ok.2 hread', ofYaml_toYaml hstorable⟩

/-- An entry with a key that looks like a number, a negative integer and a line break. -/
def sampleText : String :=
  "repositories: [\x7b'1': [-2, \"\\n\"]\x7d]"

/-- What `sampleText` stands for. -/
def sampleFile : RepositoriesFile where
  repositories := [.object [("1", .array [.number (.integer ⟨-2, by decide⟩), .string "\n"])]]

/-- A host without any files. -/
def sampleHost : Host where
  files := .empty
  workingDirectory := .standing ⟨"/"⟩
  environment := []

theorem load_save_sample : ofYaml sampleText = .ok sampleFile ∧
    (∀ v ∈ sampleFile.repositories, v.isIntegral = true) ∧
    ∃ h', sampleFile.save sampleHost ⟨"conf/r.yaml"⟩ = .ok h' ∧
      loadFrom h' ⟨"conf/r.yaml"⟩ = .ok sampleFile := by
  have hread : ofYaml sampleText = .ok sampleFile := by cbv
  have hintegral : ∀ v ∈ sampleFile.repositories, v.isIntegral = true := by decide
  exact ⟨hread, hintegral, load_save hread hintegral ⟨"", _, rfl⟩⟩

end Depot.RepositoriesFile
