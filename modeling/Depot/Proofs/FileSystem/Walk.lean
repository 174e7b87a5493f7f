import Depot.Host
import Depot.Proofs.Path
import Depot.Proofs.Result

/-!
# Following paths

A path can be followed part by part. The working directory of a running program, unless it was
removed, is a path that leads to a directory of its own position (`Host.Grounded`); there, a
relative path and the path joined to the working directory lead to the same place
(`Host.readText_join`), unless the second one is too long to be followed.
-/

namespace Depot

namespace FileSystem

variable {fs : FileSystem} {position below : List (List Char)} {xs ys : List (List Char)}
  {piece : List Char} {e : Entry}

lemma walk_nil_eq_ok_iff :
    fs.walk position [] = .ok (below, e) ↔ fs.entryAt? position = some e ∧ below = position := by
  rw [walk]
  cases fs.entryAt? position with
  | none => simp
  | some d => simp [eq_comm, and_comm]

lemma walk_cons (h : fs.entryAt? position = some .directory) (piece : List Char)
    (rest : List (List Char)) : fs.walk position (piece :: rest) =
      if Path.isIdle piece then fs.walk position rest
      else if piece = ['.', '.'] then fs.walk position.dropLast rest
      else if nameLimit < (String.ofList piece).utf8ByteSize then .error .nameTooLong
      else fs.walk (position ++ [piece]) rest := by
  rw [walk, h]

lemma walk_cons_eq_error (h : fs.entryAt? position ≠ some .directory) (piece : List Char)
    (rest : List (List Char)) : ∃ error, fs.walk position (piece :: rest) = .error error := by
  rw [walk]
  split
  case h_5 hdirectory => exact absurd hdirectory h
  all_goals exact ⟨_, rfl⟩

/-- Below a directory that some pieces lead to, the pieces behind them are followed. -/
lemma walk_append (h : fs.walk position xs = .ok (below, .directory)) :
    fs.walk position (xs ++ ys) = fs.walk below ys := by
  induction xs generalizing position with
  | nil =>
    obtain ⟨-, rfl⟩ := walk_nil_eq_ok_iff.1 h
    rfl
  | cons piece xs ih =>
    by_cases hdirectory : fs.entryAt? position = some .directory
    · rw [walk_cons hdirectory] at h
      rw [List.cons_append, walk_cons hdirectory]
      split_ifs at h ⊢
      all_goals exact ih h
    · obtain ⟨error, herror⟩ := walk_cons_eq_error hdirectory piece xs
      rw [herror] at h
      cases h

lemma entryAt?_of_walk (h : fs.walk position xs = .ok (below, .directory)) :
    fs.entryAt? below = some .directory := by
  have hend : fs.walk position (xs ++ []) = fs.walk below [] := walk_append h
  rw [List.append_nil, h] at hend
  exact (walk_nil_eq_ok_iff.1 hend.symm).1

/-- A slash at the end asks for a directory and nothing else. -/
lemma walk_of_append_empty (h : fs.walk position (xs ++ [[]]) = .ok (below, .directory)) :
    fs.walk position xs = .ok (below, .directory) := by
  induction xs generalizing position with
  | nil =>
    by_cases hdirectory : fs.entryAt? position = some .directory
    · rwa [List.nil_append, walk_cons hdirectory, if_pos (by decide)] at h
    · obtain ⟨error, herror⟩ := walk_cons_eq_error hdirectory [] []
      rw [List.nil_append, herror] at h
      cases h
  | cons piece xs ih =>
    rw [List.cons_append] at h
    by_cases hdirectory : fs.entryAt? position = some .directory
    · rw [walk_cons hdirectory] at h ⊢
      split_ifs at h ⊢
      all_goals exact ih h
    · obtain ⟨error, herror⟩ := walk_cons_eq_error hdirectory piece (xs ++ [[]])
      rw [herror] at h
      cases h

/-- Pieces that count for nothing lead nowhere else. -/
lemma walk_of_isIdle (hdirectory : fs.entryAt? position = some .directory)
    (h : ∀ x ∈ xs, Path.isIdle x = true) : fs.walk position xs = .ok (position, .directory) := by
  induction xs with
  | nil => exact walk_nil_eq_ok_iff.2 ⟨hdirectory, rfl⟩
  | cons piece xs ih =>
    obtain ⟨hpiece, hxs⟩ := List.forall_mem_cons.1 h
    rw [walk_cons hdirectory, if_pos hpiece, ih hxs]

/-- A path to a file has a component, at its end. -/
lemma ofPieces_ne_nil_of_walk {content : ByteArray} (hne : xs ≠ [])
    (h : fs.walk position xs = .ok (below, .file content)) : Path.ofPieces xs ≠ [] := by
  intro hnil
  have hidle : ∀ x ∈ xs, Path.isIdle x = true := by simpa [Path.ofPieces] using hnil
  obtain ⟨piece, rest, rfl⟩ := List.exists_cons_of_ne_nil hne
  by_cases hdirectory : fs.entryAt? position = some .directory
  · rw [walk_of_isIdle hdirectory hidle] at h
    cases h
  · obtain ⟨error, herror⟩ := walk_cons_eq_error hdirectory piece rest
    rw [herror] at h
    cases h

/-! ### Working directories -/

lemma walkFrom_removed_cons (above : WorkingDirectory) (piece : List Char)
    (rest : List (List Char)) : fs.walkFrom (.removed above) (piece :: rest) =
      if Path.isIdle piece then fs.walkFrom (.removed above) rest
      else if piece = ['.', '.'] then fs.walkFrom above rest
      else .error .notFound := by
  rw [walkFrom]

/-- A path that stays in a directory that was removed does not lead to a file. -/
lemma ofPieces_ne_nil_of_walkFrom {wd : WorkingDirectory} {content : ByteArray} (hne : xs ≠ [])
    (h : fs.walkFrom wd xs = .ok (.file content)) : Path.ofPieces xs ≠ [] := by
  cases wd with
  | standing p =>
    rw [walkFrom] at h
    obtain ⟨⟨below, e⟩, hwalk, rfl⟩ := map_eq_ok.1 h
    exact ofPieces_ne_nil_of_walk hne hwalk
  | removed above =>
    intro hnil
    have hidle : ∀ x ∈ xs, Path.isIdle x = true := by simpa [Path.ofPieces] using hnil
    clear hne hnil
    induction xs with
    | nil => cases h
    | cons piece rest ih =>
      obtain ⟨hpiece, hrest⟩ := List.forall_mem_cons.1 hidle
      rw [walkFrom_removed_cons, if_pos hpiece] at h
      exact ih h hrest

/-- What a path leads to from a directory that was not removed, if nothing is wrong with its
text. -/
lemma find_eq_walk {wd p : Path} (hnul : '\x00' ∉ p.text.toList) (hne : p.text ≠ "")
    (hlen : p.text.utf8ByteSize ≤ pathLimit) : fs.find (.standing wd) p =
      (fs.walk (if p.isAbsolute then [] else positionOf wd) (Path.pieces p.text.toList)).map
        Prod.snd := by
  rw [find, if_neg (by simpa using hnul), if_neg (by simpa using hne), if_neg (by omega),
    WorkingDirectory.startOf]
  split_ifs
  · rw [walkFrom]
    rfl
  · rw [walkFrom]

/-- The path of a file that can be read is not empty, and has a component. -/
lemma ne_empty_of_readText {wd : WorkingDirectory} {p : Path} {text : String}
    (h : fs.readText wd p = .ok text) :
    p.text ≠ "" ∧ Path.ofPieces (Path.pieces p.text.toList) ≠ [] := by
  rw [readText] at h
  split at h
  case h_5 content hfind =>
    rw [find] at hfind
    split_ifs at hfind with hnul hempty hlen
    exact ⟨by simpa using hempty, ofPieces_ne_nil_of_walkFrom (Path.pieces_ne_nil _) hfind⟩
  all_goals cases h

end FileSystem

namespace Host

/-- The working directory of a running program, unless it was removed: an absolute path, without
`..` in it, that leads to the directory of the same position. -/
structure Grounded (h : Host) (wd : Path) : Prop where
  standing : h.workingDirectory = .standing wd
  isAbsolute : wd.isAbsolute = true
  leads : h.files.walk [] (Path.pieces wd.text.toList) =
    .ok (FileSystem.positionOf wd, .directory)
  noNul : '\x00' ∉ wd.text.toList

variable {h : Host} {wd p : Path}

/-- A relative path leads from the working directory to where the joined path leads from the
root. -/
lemma Grounded.find_join (hh : h.Grounded wd) (hp : ¬ p.isAbsolute = true) (hne : p.text ≠ "")
    (hlen : (wd.join p).text.utf8ByteSize ≤ FileSystem.pathLimit) :
    h.files.find h.workingDirectory (wd.join p) = h.files.find h.workingDirectory p := by
  obtain ⟨a, ha, hjoin⟩ := Path.text_join (Path.text_ne_empty hh.isAbsolute) hp
  have hleads : h.files.walk [] (Path.pieces a) =
      .ok (FileSystem.positionOf wd, .directory) := by
    have hwd := hh.leads
    rcases ha with ⟨ha, -⟩ | ha
    · rwa [ha] at hwd
    · rw [ha, Path.pieces_append_slash] at hwd
      exact FileSystem.walk_of_append_empty hwd
  have hnul : '\x00' ∈ (wd.join p).text.toList ↔ '\x00' ∈ p.text.toList := by
    have hnot : '\x00' ∉ a := by
      intro hmem
      refine hh.noNul ?_
      rcases ha with ⟨ha, -⟩ | ha
      all_goals simp [ha, hmem]
    rw [hjoin]
    simp [hnot]
  by_cases hmem : '\x00' ∈ p.text.toList
  · rw [FileSystem.find, if_pos (by simpa using hnul.2 hmem), FileSystem.find,
      if_pos (by simpa using hmem)]
  · have hlen' : p.text.utf8ByteSize ≤ FileSystem.pathLimit :=
      Nat.le_trans (Path.utf8ByteSize_le_join _ _) hlen
    have hne' : (wd.join p).text ≠ "" := by
      intro hempty
      rw [hempty] at hjoin
      simp at hjoin
    rw [hh.standing, FileSystem.find_eq_walk (hnul.not.2 hmem) hne' hlen,
      FileSystem.find_eq_walk hmem hne hlen', if_pos (Path.isAbsolute_join hh.isAbsolute p),
      if_neg hp, hjoin, Path.pieces_append_slash, FileSystem.walk_append hleads]

lemma Grounded.readText_join (hh : h.Grounded wd) (hp : ¬ p.isAbsolute = true) (hne : p.text ≠ "")
    (hlen : (wd.join p).text.utf8ByteSize ≤ FileSystem.pathLimit) :
    h.readText (wd.join p) = h.readText p := by
  rw [readText, readText, FileSystem.readText, FileSystem.readText, hh.find_join hp hne hlen]

end Host

end Depot
