import Depot.Yaml.Mark
import Mathlib.Tactic.Lemma

/-!
# Going over a text

What a cursor does on a text that is known in part: it goes over the part that it reads, and its
mark goes along. `Mark.past` is the place behind some characters, so that each reader can be said
to take a cursor from `⟨cs ++ rest, m⟩` to `⟨rest, m.past cs⟩`.
-/

namespace Depot.Yaml

variable {c : Char} {cs ds rest : List Char} {m : Mark} {p : Char → Bool}

/-! ### Characters -/

lemma isBlank_eq_false_of_isBreak (h : isBreak c = true) : isBlank c = false := by
  rw [← Bool.not_eq_true]
  intro hblank
  rcases (by simpa [isBlank] using hblank : c = ' ' ∨ c = '\t') with rfl | rfl
  all_goals exact absurd h (by decide)

/-- The characters of one line. -/
def IsLine (cs : List Char) : Prop :=
  ∀ c ∈ cs, isBreak c = false

instance : Decidable (IsLine cs) :=
  List.decidableBAll (isBreak · = false) cs

lemma IsLine.append (hc : IsLine cs) (hd : IsLine ds) : IsLine (cs ++ ds) := by
  intro c hmem
  exact (List.mem_append.1 hmem).elim (hc c) (hd c)

/-- No character of a kind stands at the front of a text. -/
def NotAhead (p : Char → Bool) (cs : List Char) : Prop :=
  ∀ c ∈ cs.head?, p c = false

lemma takeWhile_append_of_notAhead (hcs : ∀ c ∈ cs, p c = true) (h : NotAhead p rest) :
    (cs ++ rest).takeWhile p = cs := by
  rw [List.takeWhile_append_of_pos hcs]
  cases rest with
  | nil => simp
  | cons x rest =>
    have hx : p x = false := h x rfl
    simp [hx]

/-! ### Marks -/

/-- The place behind some characters. -/
def Mark.past (m : Mark) : List Char → Mark
  | [] => m
  | c :: cs => past (if isBreak c then m.down 1 else m.right 1) cs

namespace Mark

lemma past_append (m : Mark) (cs ds : List Char) : m.past (cs ++ ds) = (m.past cs).past ds := by
  induction cs generalizing m with
  | nil => rfl
  | cons c cs ih => exact ih _

lemma right_right (m : Mark) (j k : Nat) : (m.right j).right k = m.right (j + k) := by
  simp [right, Nat.add_assoc]

lemma past_of_isLine (h : IsLine cs) : m.past cs = m.right cs.length := by
  induction cs generalizing m with
  | nil => rfl
  | cons c cs ih =>
    rw [past, if_neg (by simp [h c]), ih fun x hx => h x (List.mem_cons_of_mem _ hx), right_right,
      List.length_cons, Nat.add_comm]

lemma past_break (h : isBreak c = true) (cs : List Char) :
    m.past (c :: cs) = (m.down 1).past cs := by
  rw [past, if_pos h]

lemma line_le_past (m : Mark) (cs : List Char) : m.line ≤ (m.past cs).line := by
  induction cs generalizing m with
  | nil => exact Nat.le_refl _
  | cons c cs ih =>
    refine Nat.le_trans ?_ (ih _)
    split <;> simp [down, right]

lemma column_over_breaks {m : Mark} (hcs : ∀ c ∈ cs, isBreak c = true) (hne : cs ≠ []) :
    (m.past cs).column = 0 := by
  induction cs generalizing m with
  | nil => exact absurd rfl hne
  | cons c cs ih =>
    obtain ⟨hc, hcs⟩ := List.forall_mem_cons.1 hcs
    rw [past_break hc]
    cases cs with
    | nil => rfl
    | cons => exact ih hcs (by simp)

/-- The column behind an indentation that follows line breaks at the start of a line. -/
lemma column_indented {m : Mark} (hcs : ∀ c ∈ cs, isBreak c = true) (hm : m.column = 0) (k : Nat) :
    ((m.past cs).right k).column = k := by
  have hzero : (m.past cs).column = 0 := by
    cases cs with
    | nil => exact hm
    | cons => exact column_over_breaks hcs (by simp)
  simp only [right, hzero, Nat.zero_add]

lemma column_over_break (m : Mark) (cs : List Char) (h : isBreak c = true) (hds : IsLine ds) :
    (m.past (cs ++ c :: ds)).column = ds.length := by
  rw [past_append, past_break h, past_of_isLine hds]
  simp [down, right]

/-- A mark is before another one, by lines and by characters. -/
def UpTo (m m' : Mark) : Prop :=
  m.line ≤ m'.line ∧ m.index ≤ m'.index

namespace UpTo

variable {m₁ m₂ m₃ : Mark}

lemma refl (m : Mark) : m.UpTo m := ⟨Nat.le_refl _, Nat.le_refl _⟩

lemma trans (h : m₁.UpTo m₂) (h' : m₂.UpTo m₃) : m₁.UpTo m₃ :=
  ⟨Nat.le_trans h.1 h'.1, Nat.le_trans h.2 h'.2⟩

lemma right (h : m₁.UpTo m₂) (n : Nat) : m₁.UpTo (m₂.right n) :=
  ⟨h.1, Nat.le_add_right_of_le h.2⟩

lemma down (h : m₁.UpTo m₂) (n : Nat) : m₁.UpTo (m₂.down n) :=
  ⟨Nat.le_add_right_of_le h.1, Nat.le_add_right_of_le h.2⟩

lemma skipWhile {c : Cursor} (h : m₁.UpTo c.mark) (p : Char → Bool) :
    m₁.UpTo (c.skipWhile p).mark :=
  h.right _

lemma ite {c c' : Cursor} (h : m₁.UpTo c.mark) (b : Bool) (h' : m₁.UpTo c'.mark) :
    m₁.UpTo (if b then c' else c).mark := by
  split
  · exact h'
  · exact h

lemma skipComment {c : Cursor} (h : m₁.UpTo c.mark) :
    m₁.UpTo (if c.sees '#' then c.skipLine else c).mark :=
  h.ite _ (h.skipWhile _)

end UpTo

end Mark

/-! ### Cursors -/

namespace Cursor

lemma upTo_readBreak? {c c' : Cursor} {x : Char} (h : c.readBreak? = some (x, c')) :
    c.mark.UpTo c'.mark := by
  unfold readBreak? at h
  split at h
  · cases h
    exact (Mark.UpTo.refl _).down 2
  · split at h
    · cases h
      exact (Mark.UpTo.refl _).down 1
    · cases h
  · cases h

lemma skip_one (c : Char) (rest : List Char) (m : Mark) :
    (Cursor.mk (c :: rest) m).skip 1 = ⟨rest, m.right 1⟩ := rfl

lemma span_append (hcs : ∀ c ∈ cs, p c = true) (h : NotAhead p rest) :
    (Cursor.mk (cs ++ rest) m).span p = (cs, ⟨rest, m.right cs.length⟩) := by
  simp only [span, takeWhile_append_of_notAhead hcs h, List.drop_left]

lemma span_of_notAhead (h : NotAhead p rest) :
    (Cursor.mk rest m).span p = ([], ⟨rest, m⟩) := by
  have hnil : ∀ c ∈ ([] : List Char), p c = true := nofun
  exact span_append hnil h

lemma skipWhile_append (hcs : ∀ c ∈ cs, p c = true) (h : NotAhead p rest) :
    (Cursor.mk (cs ++ rest) m).skipWhile p = ⟨rest, m.right cs.length⟩ := by
  rw [skipWhile, span_append hcs h]

lemma readBreak?_cons (h : isBreak c = true) (hc : c ≠ '\r') :
    (Cursor.mk (c :: rest) m).readBreak? = some (breakText c, ⟨rest, m.down 1⟩) := by
  unfold readBreak?
  split
  · simp_all
  · simp_all
  · simp_all

lemma readBreak?_of_notAhead (h : NotAhead isBreak rest) :
    (Cursor.mk rest m).readBreak? = none := by
  cases rest with
  | nil => rfl
  | cons x rest =>
    have hx : isBreak x = false := h x rfl
    have hr : x ≠ '\r' := by
      rintro rfl
      exact absurd hx (by decide)
    unfold readBreak?
    split
    · simp_all
    · simp_all
    · rfl

lemma sees_eq_false (h : rest.head? ≠ some c) : (Cursor.mk rest m).sees c = false := by
  simpa [sees] using h

end Cursor

end Depot.Yaml
