import Depot.Proofs.FileSystem.Walk
import Depot.Proofs.Text.Octets

/-!
# Writing files

A path that can be written with one text can be written with any text, which is read from it again
(`Host.readText_writeText`): the directories above it are those that the path leads through, whether
they were there before or not.
-/

namespace Depot

namespace FileSystem

variable {fs gs hs : FileSystem} {wd : WorkingDirectory} {p : Path}
  {position below : List (List Char)} {xs : List (List Char)} {piece : List Char}
  {content : ByteArray}

/-- Every directory of a file system is one of another. -/
def Keeps (fs gs : FileSystem) : Prop :=
  ∀ position, fs.entryAt? position = some .directory → gs.entryAt? position = some .directory

lemma Keeps.refl (fs : FileSystem) : fs.Keeps fs :=
  fun _ => id

lemma Keeps.trans (h : fs.Keeps gs) (h' : gs.Keeps hs) : fs.Keeps hs :=
  fun position hposition => h' position (h position hposition)

/-- The way to a directory goes through directories only. -/
lemma Keeps.walk (h : fs.Keeps gs) (hwalk : fs.walk position xs = .ok (below, .directory)) :
    gs.walk position xs = .ok (below, .directory) := by
  induction xs generalizing position with
  | nil =>
    obtain ⟨hentry, rfl⟩ := walk_nil_eq_ok_iff.1 hwalk
    exact walk_nil_eq_ok_iff.2 ⟨h _ hentry, rfl⟩
  | cons piece xs ih =>
    by_cases hdirectory : fs.entryAt? position = some .directory
    · rw [walk_cons hdirectory] at hwalk
      rw [walk_cons (h _ hdirectory)]
      split_ifs at hwalk ⊢
      all_goals exact ih hwalk
    · obtain ⟨error, herror⟩ := walk_cons_eq_error hdirectory piece xs
      rw [herror] at hwalk
      cases hwalk

lemma entryAt?_cons_of_ne {e : Entry} (h : below ≠ position) :
    (FileSystem.mk ((position, e) :: fs.entries)).entryAt? below = fs.entryAt? below := by
  unfold entryAt?
  rw [List.lookup_cons, beq_false_of_ne h]

lemma entryAt?_cons_self (fs : FileSystem) (e : Entry) (h : position ≠ []) :
    (FileSystem.mk ((position, e) :: fs.entries)).entryAt? position = some e := by
  unfold entryAt?
  rw [if_neg (by simpa using h), List.lookup_cons_self]

lemma keeps_cons {e : Entry} (h : fs.entryAt? position ≠ some .directory) :
    fs.Keeps ⟨(position, e) :: fs.entries⟩ := by
  intro below hbelow
  have hne : below ≠ position := by
    rintro rfl
    exact h hbelow
  rw [entryAt?_cons_of_ne hne, hbelow]

lemma keeps_addDirectory (fs : FileSystem) (position : List (List Char)) :
    fs.Keeps (fs.addDirectory position) := by
  unfold addDirectory
  split
  · exact .refl fs
  next hnone => exact keeps_cons (by simp [hnone])

/-- A piece leads from a directory to the next one, which may have been made for it. -/
lemma walkMaking_cons_eq_ok (h : fs.walkMaking position (piece :: xs) = .ok (gs, below)) :
    ∃ hs next, fs.entryAt? position = some .directory ∧ fs.Keeps hs ∧
      hs.walkMaking next xs = .ok (gs, below) ∧
      ∀ ks : FileSystem, ks.entryAt? position = some .directory →
        ks.walk position (piece :: xs) = ks.walk next xs := by
  rw [walkMaking] at h
  split at h
  case h_1 | h_2 | h_3 | h_4 => cases h
  case h_5 hdirectory =>
  split at h
  next hidle =>
    exact ⟨fs, position, hdirectory, .refl fs, h, fun ks hks => by
      rw [walk_cons hks, if_pos hidle]⟩
  next hidle =>
  split at h
  next hup =>
    exact ⟨fs, position.dropLast, hdirectory, .refl fs, h, fun ks hks => by
      rw [walk_cons hks, if_neg hidle, if_pos hup]⟩
  next hup =>
  split at h
  · cases h
  next hlength =>
  have hdown : ∀ ks : FileSystem, ks.entryAt? position = some .directory →
      ks.walk position (piece :: xs) = ks.walk (position ++ [piece]) xs := fun ks hks => by
    rw [walk_cons hks, if_neg hidle, if_neg hup, if_neg hlength]
  dsimp only at h
  split at h
  case h_1 | h_2 => cases h
  case h_3 | h_4 => exact ⟨fs, _, hdirectory, .refl fs, h, hdown⟩
  case h_5 => exact ⟨_, _, hdirectory, keeps_addDirectory fs _, h, hdown⟩

/-- Where directories were made, the same pieces lead to the last one, and no directory is lost. -/
lemma walk_of_walkMaking (h : fs.walkMaking position xs = .ok (gs, below)) :
    fs.Keeps gs ∧ gs.walk position xs = .ok (below, .directory) := by
  induction xs generalizing fs position with
  | nil =>
    rw [walkMaking] at h
    split at h
    case h_5 hdirectory =>
      cases h
      exact ⟨.refl _, walk_nil_eq_ok_iff.2 ⟨hdirectory, rfl⟩⟩
    all_goals cases h
  | cons piece xs ih =>
    obtain ⟨hs, next, hdirectory, hkeeps, hmaking, hwalk⟩ := walkMaking_cons_eq_ok h
    obtain ⟨hkeeps', hbelow⟩ := ih hmaking
    have hkeeps := hkeeps.trans hkeeps'
    exact ⟨hkeeps, (hwalk gs (hkeeps _ hdirectory)).trans hbelow⟩

lemma walkFrom_standing_of_walkMaking (h : fs.walkMaking (positionOf p) xs = .ok (gs, below))
    (hkeeps : gs.Keeps hs) : hs.entryAt? below = some .directory ∧
      ∀ ys, hs.walkFrom (.standing p) (xs ++ ys) = (hs.walk below ys).map Prod.snd := by
  have hwalk := hkeeps.walk (walk_of_walkMaking h).2
  refine ⟨entryAt?_of_walk hwalk, fun ys => ?_⟩
  rw [walkFrom, walk_append hwalk]

/-- Where directories were made from a working directory, the same pieces lead to the last one, and
what stands behind them is followed from there. -/
lemma walkFrom_of_walkMakingFrom (h : fs.walkMakingFrom wd xs = .ok (gs, below))
    (hkeeps : gs.Keeps hs) : hs.entryAt? below = some .directory ∧
      ∀ ys, hs.walkFrom wd (xs ++ ys) = (hs.walk below ys).map Prod.snd := by
  induction xs generalizing wd with
  | nil =>
    cases wd with
    | standing p => exact walkFrom_standing_of_walkMaking h hkeeps
    | removed above => cases h
  | cons piece xs ih =>
    cases wd with
    | standing p =>
      rw [walkMakingFrom] at h
      exact walkFrom_standing_of_walkMaking h hkeeps
    | removed above =>
      rw [walkMakingFrom] at h
      simp only [List.cons_append, walkFrom_removed_cons]
      split_ifs at h ⊢
      · exact ih h
      · exact ih h

/-- A path can be written: `hs` has the directories that the file stands in, and `below` is the last
one. -/
structure Writable (fs : FileSystem) (wd : WorkingDirectory) (p : Path) (hs : FileSystem)
    (below : List (List Char)) (name : List Char) : Prop where
  nul : '\x00' ∉ p.text.toList
  ne_empty : p.text ≠ ""
  length_le : p.text.utf8ByteSize ≤ pathLimit
  making : fs.walkMakingFrom (wd.startOf p) (Path.pieces p.text.toList).dropLast =
    .ok (hs, below)
  getLast? : (Path.pieces p.text.toList).getLast? = some name
  not_idle : Path.isIdle name = false
  not_up : name ≠ ['.', '.']
  name_le : (String.ofList name).utf8ByteSize ≤ nameLimit
  replaces : ∀ e, hs.entryAt? (below ++ [name]) = some e → ∃ content, e = .file content

lemma Writable.write_eq (h : fs.Writable wd p hs below piece) (content : ByteArray) :
    fs.write wd p content = .ok ⟨(below ++ [piece], .file content) :: hs.entries⟩ := by
  have hpiece : (Path.isIdle piece || piece == ['.', '.']) = false := by
    simp [h.not_idle, h.not_up]
  rw [write, put, if_neg (by simpa using h.nul), if_neg (by simpa using h.ne_empty),
    if_neg (by have := h.length_le; omega)]
  simp only [h.making, h.getLast?, hpiece, Bool.false_eq_true, if_false]
  rw [if_neg (by have := h.name_le; omega)]
  split
  case h_1 hstands | h_2 hstands | h_3 hstands =>
    obtain ⟨_, hfile⟩ := h.replaces _ hstands
    cases hfile
  case h_4 | h_5 => rfl

/-- A path that was written could be written. -/
lemma writable_of_write (h : fs.write wd p content = .ok gs) :
    ∃ hs below name, fs.Writable wd p hs below name := by
  unfold write put at h
  split at h
  · cases h
  next hnul =>
  split at h
  · cases h
  next hne =>
  split at h
  · cases h
  next hlen =>
  dsimp only at h
  split at h
  · cases h
  · cases h
  next hs below name hmaking hlast =>
  split at h
  · cases h
  next hname =>
  split at h
  · cases h
  next hnameLength =>
  have hreplaces : ∀ e, hs.entryAt? (below ++ [name]) = some e → ∃ content, e = .file content := by
    intro e hstands
    rw [hstands] at h
    cases e with
    | file content => exact ⟨content, rfl⟩
    | directory | lockedFile | lockedDirectory => cases h
  simp only [Bool.or_eq_true, beq_iff_eq, not_or, Bool.not_eq_true] at hname
  exact ⟨hs, below, name, by simpa using hnul, by simpa using hne, by omega, hmaking, hlast,
    hname.1, hname.2, by omega, hreplaces⟩

/-- What was written to a path stands there. -/
lemma Writable.find_eq (h : fs.Writable wd p hs below piece) (content : ByteArray) :
    (FileSystem.mk ((below ++ [piece], .file content) :: hs.entries)).find wd p =
      .ok (.file content) := by
  have hentry := entryAt?_cons_self hs (.file content) (List.concat_ne_nil piece below)
  have hdirectory : hs.entryAt? (below ++ [piece]) ≠ some .directory := by
    intro hstands
    obtain ⟨_, hfile⟩ := h.replaces _ hstands
    cases hfile
  have hkeeps := keeps_cons (e := .file content) hdirectory
  generalize FileSystem.mk _ = gs at hentry hkeeps ⊢
  obtain ⟨hdirectory, hwalk⟩ := walkFrom_of_walkMakingFrom h.making hkeeps
  have hpieces : Path.pieces p.text.toList = (Path.pieces p.text.toList).dropLast ++ [piece] :=
    (List.dropLast_append_getLast? piece h.getLast?).symm
  have hlast : gs.walk (below ++ [piece]) [] = .ok (below ++ [piece], .file content) :=
    walk_nil_eq_ok_iff.2 ⟨hentry, rfl⟩
  rw [find, if_neg (by simpa using h.nul), if_neg (by simpa using h.ne_empty),
    if_neg (by have := h.length_le; omega), hpieces, hwalk,
    walk_cons hdirectory, if_neg (by simp [h.not_idle]), if_neg h.not_up,
    if_neg (by have := h.name_le; omega), hlast]
  rfl

end FileSystem

namespace Host

variable {h : Host} {p : Path}

/-- A path that can be written can be written with any text, which is then read from it. -/
theorem readText_writeText (hwritable : ∃ text h', h.writeText p text = .ok h') (text : String) :
    ∃ h', h.writeText p text = .ok h' ∧ h'.readText p = .ok text := by
  obtain ⟨text', h', hwrite⟩ := hwritable
  obtain ⟨gs, hgs, -⟩ := map_eq_ok.1 hwrite
  obtain ⟨hs, below, name, hw⟩ := FileSystem.writable_of_write hgs
  let entry : List (List Char) × Entry := (below ++ [name], .file text.toUTF8)
  refine ⟨{ h with files := ⟨entry :: hs.entries⟩ }, ?_, ?_⟩
  · rw [writeText, hw.write_eq]
    rfl
  · rw [readText, FileSystem.readText, hw.find_eq text.toUTF8]
    simp only [Text.fromUTF8?_toUTF8]

end Host

end Depot
