import Depot.Session
import Mathlib.Tactic.Lemma

/-!
# Steps on repositories that are there

Five steps of a session build nothing: they copy a repository from a slot or from the roster, or make
something of one in its slot. Such a step either leaves the whole session as it is, or puts one
repository into a slot and does nothing else (`run_of_reuses`).
-/

namespace Depot

namespace Session

variable {step : Step}

/-- A step that starts from a repository in a slot or in the roster. -/
def Step.reuses : Step → Bool
  | .copy .. | .take .. | .setProperty .. | .configure .. | .change .. => true
  | .build .. | .create .. | .declare _ | .store .. | .clear _ => false

/-- The repository that such a step puts into a slot. A configuration puts what it got to, even if it
ended early. -/
inductive Puts (s : Session) : Step → String → Repository → Prop where
  | copy {source slot : String} {r : Repository} (h : s.slot? source = some r) :
      Puts s (.copy source slot) slot r
  | take {name slot : String} {r : Repository} (h : s.roster.get? name = some r) :
      Puts s (.take name slot) slot r
  | setProperty {slot p : String} {v : Json} {r t : Repository} (h : s.slot? slot = some r)
      (ht : r.setProperty? p v = some (.ok t)) : Puts s (.setProperty slot p v) slot t
  | configure {slot : String} {m : Properties} {r t : Repository} {e? : Option Failure}
      (h : s.slot? slot = some r) (ht : r.configure? m = some (t, e?)) :
      Puts s (.configure slot m) slot t
  | change {slot : String} {c : Change} {r t : Repository} (h : s.slot? slot = some r)
      (ht : r.change? c = some t) : Puts s (.change slot c) slot t

theorem run_of_reuses (h : step.reuses = true) (f : Factory) (s : Session) :
    (s.run f step).2 = s ∨ ∃ slot r, s.Puts step slot r ∧ (s.run f step).2 = s.put slot r := by
  cases step with
  | copy source slot =>
    cases hsource : s.slot? source with
    | none => exact .inl (by simp only [run, hsource])
    | some r => exact .inr ⟨slot, r, .copy hsource, by simp only [run, hsource]⟩
  | take name slot =>
    cases hname : s.roster.get? name with
    | none => exact .inl (by simp only [run, hname])
    | some r => exact .inr ⟨slot, r, .take hname, by simp only [run, hname]⟩
  | setProperty slot p v =>
    cases hslot : s.slot? slot with
    | none => exact .inl (by simp only [run, hslot])
    | some r =>
      cases ht : r.setProperty? p v with
      | none => exact .inl (by simp only [run, hslot, ht])
      | some result =>
        cases result with
        | error e => exact .inl (by simp only [run, hslot, ht])
        | ok t => exact .inr ⟨slot, t, .setProperty hslot ht, by simp only [run, hslot, ht]⟩
  | configure slot m =>
    cases hslot : s.slot? slot with
    | none => exact .inl (by simp only [run, hslot])
    | some r =>
      cases ht : r.configure? m with
      | none => exact .inl (by simp only [run, hslot, ht])
      | some result =>
        obtain ⟨t, (_ | e)⟩ := result <;>
          exact .inr ⟨slot, t, .configure hslot ht, by simp only [run, hslot, ht]⟩
  | change slot c =>
    cases hslot : s.slot? slot with
    | none => exact .inl (by simp only [run, hslot])
    | some r =>
      cases ht : r.change? c with
      | none => exact .inl (by simp only [run, hslot, ht])
      | some t => exact .inr ⟨slot, t, .change hslot ht, by simp only [run, hslot, ht]⟩
  | build | create | declare | store | clear => cases h

lemma roster_run_of_reuses (h : step.reuses = true) (f : Factory) (s : Session) :
    (s.run f step).2.roster = s.roster := by
  obtain heq | ⟨slot, r, -, heq⟩ := run_of_reuses h f s <;> rw [heq]
  rfl

lemma indices_run_of_reuses (h : step.reuses = true) (f : Factory) (s : Session) :
    (s.run f step).2.indices = s.indices := by
  obtain heq | ⟨slot, r, -, heq⟩ := run_of_reuses h f s <;> rw [heq]
  rfl

end Session

end Depot
