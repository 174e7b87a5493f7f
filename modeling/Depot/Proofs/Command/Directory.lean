import Depot.Command.Run
import Depot.Proofs.Path
import Depot.Proofs.Result

/-!
# The directory of a file

An absolute path names the directory that it stands in. A relative one does so from the working
directory, and if that was removed, the directory of the file is not known.
-/

namespace Depot

/-- A working directory has an absolute path, unless it was removed. -/
def WorkingDirectory.IsAbsolute (wd : WorkingDirectory) : Prop :=
  ∀ p, wd.path = .ok p → p.isAbsolute = true

lemma WorkingDirectory.isAbsolute_standing {p : Path} (hp : p.isAbsolute = true) :
    (WorkingDirectory.standing p).IsAbsolute := by
  rintro q ⟨⟩
  exact hp

namespace Command

variable {h : Host} {p d : Path}

/-! ### Absolute paths -/

/-- An absolute path with a component, so that there is a directory before it. -/
lemma parentOf_of_isAbsolute (hp : p.isAbsolute = true)
    (hne : Path.ofPieces (Path.pieces p.text.toList) ≠ []) :
    (parentOf p).isAbsolute = true ∧ (parentOf p).components = p.components.dropLast := by
  obtain ⟨d, hd⟩ := Path.exists_parent? hne
  obtain ⟨habsolute, hpieces⟩ := Path.parent?_eq_some hd
  rw [hp] at habsolute
  have hparent : parentOf p = d := by
    have hempty : d.text ≠ "" := Path.text_ne_empty habsolute
    simp [parentOf, hd, hempty]
  rw [hparent, Path.components_of_isAbsolute habsolute, hpieces, Path.components_of_isAbsolute hp,
    List.dropLast_cons_of_ne_nil hne]
  exact ⟨habsolute, rfl⟩

lemma directoryOf_of_isAbsolute (hp : p.isAbsolute = true)
    (hne : Path.ofPieces (Path.pieces p.text.toList) ≠ []) :
    directoryOf h p = .ok (parentOf p) := by
  rw [directoryOf, if_pos (parentOf_of_isAbsolute hp hne).1]

/-! ### Relative paths -/

lemma isAbsolute_parentOf_of_relative (hp : p.isAbsolute = false) :
    (parentOf p).isAbsolute = false := by
  rw [parentOf]
  cases hparent : p.parent? with
  | none => rfl
  | some d =>
    obtain ⟨habsolute, -⟩ := Path.parent?_eq_some hparent
    dsimp only
    split_ifs
    · rfl
    · rw [habsolute, hp]

lemma directoryOf_of_relative (hp : p.isAbsolute = false) : directoryOf h p =
    (h.workingDirectory.path.map fun wd => wd.join (parentOf p)).mapError .io := by
  rw [directoryOf, if_neg (by simp [isAbsolute_parentOf_of_relative hp])]

/-- Below an absolute directory, the one before a relative path has all components but the last. -/
lemma components_join_parentOf {wd : Path} (hwd : wd.isAbsolute = true)
    (hp : p.isAbsolute = false) : (wd.join (parentOf p)).components =
      wd.components ++ (Path.ofPieces (Path.pieces p.text.toList)).dropLast := by
  have hne := Path.text_ne_empty hwd
  have hdot : (wd.join ⟨"."⟩).components = wd.components := by
    rw [Path.components_join hne (by decide)]
    exact List.append_nil _
  rw [parentOf]
  cases hparent : p.parent? with
  | none =>
    have hnil : Path.ofPieces (Path.pieces p.text.toList) = [] := by
      by_contra hnil
      obtain ⟨d, hd⟩ := Path.exists_parent? hnil
      rw [hparent] at hd
      cases hd
    rw [hnil, List.dropLast_nil, List.append_nil]
    exact hdot
  | some d =>
    obtain ⟨habsolute, hpieces⟩ := Path.parent?_eq_some hparent
    rw [hp] at habsolute
    rw [← hpieces]
    dsimp only
    split_ifs with hempty
    · rw [hdot, show d.text = "" by simpa using hempty]
      exact (List.append_nil _).symm
    · exact Path.components_join hne (by simp [habsolute])

/-! ### All paths -/

/-- The directory of a file is known unless its path is relative and the working directory was
removed. -/
lemma directoryOf_cases (hne : Path.ofPieces (Path.pieces p.text.toList) ≠ []) :
    (∃ d, directoryOf h p = .ok d) ∨
      p.isAbsolute = false ∧ ∃ e, h.workingDirectory.path = .error e := by
  cases hp : p.isAbsolute with
  | true => exact .inl ⟨_, directoryOf_of_isAbsolute hp hne⟩
  | false =>
    rw [directoryOf_of_relative hp]
    cases h.workingDirectory.path with
    | ok wd => exact .inl ⟨_, rfl⟩
    | error e => exact .inr ⟨rfl, e, rfl⟩

lemma isAbsolute_of_directoryOf (hcwd : h.workingDirectory.IsAbsolute)
    (hd : directoryOf h p = .ok d) : d.isAbsolute = true := by
  rw [directoryOf] at hd
  split_ifs at hd with hparent
  · cases hd
    exact hparent
  · obtain ⟨wd, hwd, rfl⟩ := map_eq_ok.1 (mapError_eq_ok.1 hd)
    exact Path.isAbsolute_join (hcwd wd hwd) _

end Command

end Depot
