import Depot.Proofs.FileSystem.Walk
import Mathlib

/-!
# Long paths

The text of a path may grow while it leads to the same place: each detour by the directory itself
adds two octets. A path that is longer than the limit leads nowhere, whatever stands there.
-/

namespace Depot

namespace Path

/-- A path with a number of detours by the directory itself before it. -/
def detour : Nat → Path → Path
  | 0, p => p
  | n + 1, p => ⟨"./" ++ (detour n p).text⟩

variable {p : Path}

lemma pieces_detour (n : Nat) (p : Path) : pieces (detour n p).text.toList =
    List.replicate n ['.'] ++ pieces p.text.toList := by
  induction n with
  | zero => rfl
  | succ n ih =>
    have htext : (detour (n + 1) p).text.toList = ['.'] ++ '/' :: (detour n p).text.toList := by
      simp [detour]
    rw [htext, pieces_append_slash, ih]
    rfl

lemma ofPieces_detour (n : Nat) (p : Path) :
    ofPieces (pieces (detour n p).text.toList) = ofPieces (pieces p.text.toList) := by
  have hidle : ofPieces (List.replicate n ['.']) = [] := by
    simp [ofPieces, isIdle]
  rw [pieces_detour, ofPieces_append, hidle, List.nil_append]

lemma isAbsolute_detour (hp : p.isAbsolute = false) (n : Nat) :
    (detour n p).isAbsolute = false := by
  cases n with
  | zero => exact hp
  | succ n => simp [detour, isAbsolute]

/-- Below another path, a path with detours has the components of the path itself. -/
lemma equiv_join_detour {q : Path} (hp : p.text ≠ "") (hq : q.isAbsolute = false) (n : Nat) :
    (p.join (detour n q)).Equiv (p.join q) := by
  rw [Equiv, components_join hp (by simp [isAbsolute_detour hq]), components_join hp (by simp [hq]),
    ofPieces_detour]

lemma utf8ByteSize_detour (n : Nat) (p : Path) :
    (detour n p).text.utf8ByteSize = 2 * n + p.text.utf8ByteSize := by
  induction n with
  | zero => simp [detour]
  | succ n ih =>
    have hdot : "./".utf8ByteSize = 2 := rfl
    rw [detour, String.utf8ByteSize_append, ih, hdot]
    omega

lemma detour_ne_empty (hp : p.text ≠ "") (n : Nat) : (detour n p).text ≠ "" := by
  cases n with
  | zero => exact hp
  | succ n => simp [detour]

lemma nul_notMem_detour (hp : '\x00' ∉ p.text.toList) (n : Nat) :
    '\x00' ∉ (detour n p).text.toList := by
  induction n with
  | zero => exact hp
  | succ n ih => simp [detour, ih]

end Path

namespace FileSystem

variable {fs : FileSystem} {wd p : Path}

lemma find_of_long {wd : WorkingDirectory} (hnul : '\x00' ∉ p.text.toList)
    (hlen : pathLimit < p.text.utf8ByteSize) : fs.find wd p = .error .nameTooLong := by
  have hne : p.text ≠ "" := by
    intro hempty
    rw [hempty] at hlen
    exact absurd hlen (by decide)
  rw [find, if_neg (by simpa using hnul), if_neg (by simpa using hne), if_pos hlen]

/-- Detours lead from the working directory to the same place, as long as the path is not too
long. -/
lemma find_detour (hwd : fs.entryAt? (positionOf wd) = some .directory)
    (hnul : '\x00' ∉ p.text.toList) (hne : p.text ≠ "") (hp : p.isAbsolute = false) {n : Nat}
    (hlen : 2 * n + p.text.utf8ByteSize ≤ pathLimit) :
    fs.find (.standing wd) (Path.detour n p) = fs.find (.standing wd) p := by
  have hstay : fs.walk (positionOf wd) (List.replicate n ['.']) =
      .ok (positionOf wd, .directory) :=
    walk_of_isIdle hwd fun x hx => by rw [List.eq_of_mem_replicate hx]; decide
  rw [find_eq_walk (Path.nul_notMem_detour hnul n) (Path.detour_ne_empty hne n)
      (by rw [Path.utf8ByteSize_detour]; exact hlen),
    find_eq_walk hnul hne (by omega), Path.isAbsolute_detour hp, hp, Path.pieces_detour]
  exact congrArg _ (walk_append hstay)

end FileSystem

end Depot
