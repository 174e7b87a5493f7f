import Depot.Proofs.Roster.Naming
import Mathlib.Algebra.Group.Nat.Defs
import Mathlib.Data.Nat.Init

/-!
# Counting up to a free name

A free name is looked for among as many candidates as there are repositories. The same name is found
by counting up from two without such a bound. If the counter is a signed word of 32 bits
(`Roster.countUp`), then it runs over only when every number below its greatest value is taken, for
which there have to be nearly as many repositories (`Roster.freeName_by_counting`).
-/

namespace Depot

namespace Roster

variable {s : Roster} {base : String}

/-! ### The counter -/

lemma toInt_succ {n : Int32} (h : n ≠ Int32.maxValue) : (n + 1).toInt = n.toInt + 1 := by
  have hne : n.toInt ≠ Int32.maxValue.toInt := fun heq => h (Int32.toInt_inj.1 heq)
  have hlt := n.toInt_lt
  have hle := n.le_toInt
  rw [Int32.toInt_maxValue] at hne
  rw [Int32.toInt_add, show (1 : Int32).toInt = 1 from rfl]
  exact Int.bmod_eq_of_le (by omega) (by omega)

/-- The first free name when the numbers from `n` on are tried in turn. The counter is moved on
before a number is tried; there is no answer if it runs over. -/
def countUp (s : Roster) (base : String) (n : Int32) : Option String :=
  if n = Int32.maxValue then none
  else if s.takes (base ++ toString n) then s.countUp base (n + 1)
  else some (base ++ toString n)
termination_by (Int32.maxValue.toInt - n.toInt).toNat
decreasing_by
  have hsucc := toInt_succ ‹n ≠ _›
  have hlt := (n + 1).toInt_lt
  rw [Int32.toInt_maxValue]
  omega

/-! ### Counting past the names that are taken -/

lemma append_toString_ofNat {n : Nat} (h : n < 2 ^ 31) :
    base ++ toString (Int32.ofNat n) = numbered base n := by
  have hn : toString (Int32.ofNat n) = toString (n : Int) :=
    congrArg toString (Int32.toInt_ofNat_of_lt h)
  rw [hn, numbered]
  rfl

lemma ofNat_ne_maxValue {n : Nat} (h : n < 2 ^ 31 - 1) : Int32.ofNat n ≠ Int32.maxValue := by
  intro heq
  have hn := Int32.toInt_ofNat_of_lt (show n < 2 ^ 31 by omega)
  rw [heq, Int32.toInt_maxValue] at hn
  omega

lemma countUp_of_mem {n : Nat} (hn : n < 2 ^ 31 - 1) (h : numbered base n ∈ s.names) :
    s.countUp base (.ofNat n) = s.countUp base (.ofNat (n + 1)) := by
  rw [countUp, if_neg (ofNat_ne_maxValue hn), append_toString_ofNat (by omega),
    if_pos (takes_iff.2 h), Int32.ofNat_add]
  rfl

lemma countUp_of_notMem {n : Nat} (hn : n < 2 ^ 31 - 1) (h : numbered base n ∉ s.names) :
    s.countUp base (.ofNat n) = some (numbered base n) := by
  rw [countUp, if_neg (ofNat_ne_maxValue hn), append_toString_ofNat (by omega), if_neg]
  rwa [takes_iff]

/-- The counter passes over the numbers of names that are taken. -/
lemma countUp_of_forall_mem {i j : Nat} (hij : i ≤ j) (hj : j < 2 ^ 31)
    (h : ∀ k, i ≤ k → k < j → numbered base k ∈ s.names) :
    s.countUp base (.ofNat i) = s.countUp base (.ofNat j) := by
  induction j, hij using Nat.le_induction with
  | base => rfl
  | succ j hij ih =>
    have hbelow := ih (by omega) fun k hk hkj => h k hk (Nat.lt_succ_of_lt hkj)
    rw [hbelow, countUp_of_mem (by omega) (h j hij (Nat.lt_succ_self j))]

/-- Counting up finds the least free number, or runs over if that is not below the greatest value of
the counter. -/
lemma LeastFree.countUp_eq {n : Nat} (h : s.LeastFree base n) :
    s.countUp base 2 = if n < 2 ^ 31 - 1 then some (numbered base n) else none := by
  split_ifs with hn
  · exact (countUp_of_forall_mem h.two_le (by omega) h.least).trans (countUp_of_notMem hn h.free)
  · have hmax : s.countUp base (.ofNat (2 ^ 31 - 1)) = none := by
      rw [countUp]
      exact if_pos rfl
    have htaken : ∀ k, 2 ≤ k → k < 2 ^ 31 - 1 → numbered base k ∈ s.names :=
      fun k hk hlt => h.least k hk (by omega)
    exact (countUp_of_forall_mem (by omega) (by omega) htaken).trans hmax

/-- For a base that is taken, whatever it ends in, the search answers with the base and the least
number from two on that gives a free name, and never with the base itself. The number is at most one
more than there are repositories. Hence counting up to it by a word of 32 bits gives the same name,
with fewer than `2 ^ 31 - 2` repositories; with more it may run over, and does so exactly if the
number is too great. -/
theorem freeName_by_counting (h : base ∈ s.names) :
    ∃ n, s.LeastFree base n ∧ n ≤ s.declared.length + 1 ∧ s.freeName base = numbered base n ∧
      s.freeName base ≠ base ∧
      (s.countUp base 2 = none ↔ 2 ^ 31 - 1 ≤ n) ∧
      (s.declared.length < 2 ^ 31 - 2 → s.countUp base 2 = some (s.freeName base)) := by
  obtain ⟨n, hleast, hle, hname⟩ := freeName_spec h
  have hcount := hleast.countUp_eq
  refine ⟨n, hleast, hle, hname, ?_, ?_, fun hlt => ?_⟩
  · rw [hname]
    exact numbered_ne_base base n
  · rw [hcount]
    split_ifs with hn
    · simpa using hn
    · simpa using hn
  · rw [hcount, hname, if_pos (by omega)]

/-- A roster of repositories with some names. -/
def ofNames (names : List String) : Roster where
  declared := names.map fun name => .custom (.wrap name 0)

/-- A base that ends in a digit, the names with the two numbers after it, and one that is taken
without need. -/
theorem freeName_by_counting_digits :
    let s := ofNames ["a12", "a1", "a13", "a15"]
    "a1" ∈ s.names ∧ s.LeastFree "a1" 4 ∧ s.freeName "a1" = "a14" ∧
      s.countUp "a1" 2 = some "a14" := by
  intro s
  have hmem : "a1" ∈ s.names := by decide
  have hname : s.freeName "a1" = "a14" := by decide
  obtain ⟨n, hleast, -, hn, -, -, hcount⟩ := freeName_by_counting hmem
  obtain rfl : n = 4 := numbered_injective "a1" (hn.symm.trans hname)
  exact ⟨hmem, hleast, hname, hname ▸ hcount (by decide)⟩

end Roster

end Depot
