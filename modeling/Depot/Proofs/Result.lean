import Mathlib.Tactic.Lemma

/-!
# Results

When a computation that may fail, put together from smaller ones, succeeds.
-/

namespace Depot

variable {ε δ α β : Type}

lemma bind_eq_ok {x : Except ε α} {f : α → Except ε β} {b : β} :
    x >>= f = .ok b ↔ ∃ a, x = .ok a ∧ f a = .ok b := by
  cases x <;> simp [bind, Except.bind]

lemma map_eq_ok {x : Except ε α} {f : α → β} {b : β} :
    x.map f = .ok b ↔ ∃ a, x = .ok a ∧ f a = b := by
  cases x <;> simp [Except.map]

lemma map_eq_error {x : Except ε α} {f : α → β} {e : ε} : x.map f = .error e ↔ x = .error e := by
  cases x <;> simp [Except.map]

lemma mapError_eq_ok {x : Except ε α} {f : ε → δ} {a : α} :
    x.mapError f = .ok a ↔ x = .ok a := by
  constructor
  · intro h
    cases x with
    | error e => cases h
    | ok b =>
      cases h
      rfl
  · rintro rfl
    rfl

lemma mapError_eq_error {x : Except ε α} {f : ε → δ} {d : δ} :
    x.mapError f = .error d ↔ ∃ e, x = .error e ∧ f e = d := by
  constructor
  · intro h
    cases x with
    | error e =>
      cases h
      exact ⟨e, rfl, rfl⟩
    | ok a => cases h
  · rintro ⟨e, rfl, rfl⟩
    rfl

lemma toOption_eq_some {x : Except ε α} {a : α} : x.toOption = some a ↔ x = .ok a := by
  cases x <;> simp [Except.toOption]

/-! ### Two computations -/

/-- Two results that are both failures, of the same kind, or both successes with related values. -/
inductive Agree (R : α → β → Prop) : Except ε α → Except ε β → Prop where
  | ok {a : α} {b : β} (h : R a b) : Agree R (.ok a) (.ok b)
  | error (e : ε) : Agree R (.error e) (.error e)

namespace Agree

variable {α' β' : Type} {R : α → β → Prop} {R' : α' → β' → Prop} {x : Except ε α} {y : Except ε β}

lemma refl {R : α → α → Prop} (hR : ∀ a, R a a) (x : Except ε α) : Agree R x x := by
  cases x with
  | ok a => exact .ok (hR a)
  | error e => exact .error e

lemma bind (h : Agree R x y) {f : α → Except ε α'} {g : β → Except ε β'}
    (hfg : ∀ a b, R a b → Agree R' (f a) (g b)) : Agree R' (x >>= f) (y >>= g) := by
  cases h with
  | ok h => exact hfg _ _ h
  | error e => exact .error e

lemma map (h : Agree R x y) {f : α → α'} {g : β → β'} (hfg : ∀ a b, R a b → R' (f a) (g b)) :
    Agree R' (x.map f) (y.map g) := by
  cases h with
  | ok h => exact .ok (hfg _ _ h)
  | error e => exact .error e

lemma ite {x' : Except ε α} {y' : Except ε β} {c : Prop} [Decidable c] (h : Agree R x y)
    (h' : Agree R x' y') : Agree R (if c then x else x') (if c then y else y') := by
  split
  · exact h
  · exact h'

/-- If one of two computations succeeds, the other one succeeds as well. -/
lemma exists_of_ok {b : β} (h : Agree R x (.ok b)) : ∃ a, x = .ok a ∧ R a b := by
  cases h with
  | ok h => exact ⟨_, rfl, h⟩

@[inherit_doc exists_of_ok]
lemma exists_of_ok_left {a : α} (h : Agree R (.ok a) y) : ∃ b, y = .ok b ∧ R a b := by
  cases h with
  | ok h => exact ⟨_, rfl, h⟩

lemma mapError (h : Agree R x y) (f : ε → δ) : Agree R (x.mapError f) (y.mapError f) := by
  cases h with
  | ok h => exact .ok h
  | error e => exact .error (f e)

end Agree

/-- Two results that are both failures, with related errors, or both successes with related values. -/
inductive Related {ε' : Type} (E : ε → ε' → Prop) (R : α → β → Prop) :
    Except ε α → Except ε' β → Prop where
  | ok {a : α} {b : β} (h : R a b) : Related E R (.ok a) (.ok b)
  | error {e : ε} {e' : ε'} (h : E e e') : Related E R (.error e) (.error e')

namespace Related

variable {ε' δ' α' β' : Type} {E : ε → ε' → Prop} {R : α → β → Prop} {R' : α' → β' → Prop}
  {x : Except ε α} {y : Except ε' β}

lemma refl {E : ε → ε → Prop} {R : α → α → Prop} (hE : ∀ e, E e e) (hR : ∀ a, R a a)
    (x : Except ε α) : Related E R x x := by
  cases x with
  | ok a => exact .ok (hR a)
  | error e => exact .error (hE e)

lemma bind (h : Related E R x y) {f : α → Except ε α'} {g : β → Except ε' β'}
    (hfg : ∀ a b, R a b → Related E R' (f a) (g b)) : Related E R' (x >>= f) (y >>= g) := by
  cases h with
  | ok h => exact hfg _ _ h
  | error h => exact .error h

lemma map (h : Related E R x y) {f : α → α'} {g : β → β'} (hfg : ∀ a b, R a b → R' (f a) (g b)) :
    Related E R' (x.map f) (y.map g) := by
  cases h with
  | ok h => exact .ok (hfg _ _ h)
  | error h => exact .error h

lemma mapError (h : Related E R x y) {F : δ → δ' → Prop} {f : ε → δ} {g : ε' → δ'}
    (hfg : ∀ e e', E e e' → F (f e) (g e')) : Related F R (x.mapError f) (y.mapError g) := by
  cases h with
  | ok h => exact .ok h
  | error h => exact .error (hfg _ _ h)

end Related

end Depot
