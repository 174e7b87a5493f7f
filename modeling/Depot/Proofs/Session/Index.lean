import Depot.Proofs.ResourceIndex
import Depot.Proofs.Roster.Sharing
import Depot.Proofs.Session.Holders

/-!
# The shared index in a session

The stores and clears of a session go to the index of its factory, in their order, and no other step
touches an index. A Maven or an Ivy repository that came about within the factory is bound to that
same index, whenever it was built and whatever was done to it since; so what one of them looks up is
what the factory looks up (`Session.index_of_run`).
-/

namespace Depot

open Roster (Request)

/-! ### What a step does to a repository -/

namespace Repository

variable {r t : Repository} {p : String} {v : Json} {m : Properties}

lemma infrastructure?_of_change? {c : Change} (h : r.change? c = some t) :
    t.infrastructure? = r.infrastructure? := by
  cases r with
  | maven r =>
    obtain ⟨t, ht, rfl⟩ := Option.map_eq_some_iff.1 h
    cases c <;> cases ht <;> rfl
  | ivy r =>
    obtain ⟨t, ht, rfl⟩ := Option.map_eq_some_iff.1 h
    cases c <;> cases ht <;> rfl
  | flatDir r =>
    obtain ⟨t, -, rfl⟩ := Option.map_eq_some_iff.1 h
    rfl
  | custom r =>
    cases c <;> cases h
    rfl

lemma change?_name (r : Repository) (name : String) :
    r.change? (.name name) = some (r.withName name) := by
  cases r <;> rfl

lemma setProperty?_eq_some {x : Except Failure Repository} (h : r.setProperty? p v = some x) :
    x = setProperty r p v := by
  cases r with
  | maven r => exact (Option.some.inj h).symm.trans (setProperty_wrap r p v).symm
  | ivy r => exact (Option.some.inj h).symm.trans (setProperty_wrap r p v).symm
  | flatDir r => exact (Option.some.inj h).symm.trans (setProperty_wrap r p v).symm
  | custom r => cases h

lemma configure?_eq_some {x : Repository × Option Failure} (h : r.configure? m = some x) :
    x = configure r m := by
  cases r with
  | maven r => exact (Option.some.inj h).symm.trans (configureEntries_wrap r m.entries).symm
  | ivy r => exact (Option.some.inj h).symm.trans (configureEntries_wrap r m.entries).symm
  | flatDir r => exact (Option.some.inj h).symm.trans (configureEntries_wrap r m.entries).symm
  | custom r => cases h

end Repository

/-! ### Repositories of a factory -/

namespace Factory

/-- A repository that came about within a factory. The factory built it, with a draft or without
one, or declared it; or it was made of such a repository by an assignment, by a configuration, even
one that ended early, or by a change, of which a new name is one. -/
inductive Made (f : Factory) : Repository → Prop where
  | built {b : Blueprint} {used : Nat} {r : Repository} (h : (f.build b used).1 = .ok r) : Made f r
  | created {draft : Draft} {used : Nat} {r : Repository} (hdraft : ∀ r, draft ≠ .repository r)
      (h : (f.create draft used).1 = .ok r) : Made f r
  | declared {op : Roster.Operation} {s : Roster} {r : Repository} (hop : op.handed? = none)
      (h : (s.run f op).1 = .ok r) : Made f r
  | assigned {r t : Repository} {p : String} {v : Json} (hr : Made f r)
      (h : r.setProperty? p v = some (.ok t)) : Made f t
  | configured {r t : Repository} {m : Properties} {e? : Option Failure} (hr : Made f r)
      (h : r.configure? m = some (t, e?)) : Made f t
  | changed {r t : Repository} {c : Change} (hr : Made f r) (h : r.change? c = some t) : Made f t

variable {f : Factory} {r : Repository}

lemma boundTo_of_build {b : Blueprint} {used : Nat} (h : (f.build b used).1 = .ok r) :
    r.BoundTo f.infrastructure := by
  cases b with
  | mavenLocal =>
    obtain ⟨r, hr, rfl⟩ := map_eq_ok.1 h
    obtain ⟨url, rfl⟩ := exists_url_of_mavenLocal hr
    exact Repository.boundTo_of_eq rfl
  | flatDir =>
    cases h
    nofun
  | maven | mavenCentral | ivy =>
    cases h
    exact Repository.boundTo_of_eq rfl

theorem Made.boundTo (h : f.Made r) : r.BoundTo f.infrastructure := by
  induction h with
  | built h => exact boundTo_of_build h
  | created hdraft h =>
    rw [Roster.create_eq] at h
    exact Request.boundTo_of_result (Request.ofDraft_ne_existing hdraft) h
  | declared hop h => exact Roster.boundTo_of_run hop h
  | assigned _ h ih =>
    have hassigned := Repository.setProperty_eq_ok_iff.1 (Repository.setProperty?_eq_some h).symm
    exact ih.congr hassigned.infrastructure?_eq
  | @configured r t m e? _ h ih =>
    have hkept := Repository.infrastructure?_of_configureEntries r m.entries
    rw [show configureEntries r m.entries = (t, e?) from
      (Repository.configure?_eq_some h).symm] at hkept
    exact ih.congr hkept
  | changed _ h ih => exact ih.congr (Repository.infrastructure?_of_change? h)

lemma Made.withName (h : f.Made r) (name : String) : f.Made (r.withName name) :=
  .changed h (r.change?_name name)

end Factory

namespace Session

variable {f : Factory} {s : Session} {r : Repository} {step : Step}

/-! ### Repositories of a session -/

/-- A repository that a session holds, in a slot or in its roster. -/
def Holds (s : Session) (r : Repository) : Prop :=
  (∃ slot, s.slot? slot = some r) ∨ r ∈ s.roster.declared

/-- The finished repository that a step hands over, if it is one that does. -/
def Step.handed? : Step → Option Repository
  | .create (.repository r) _ => some r
  | .declare op => op.handed?
  | .create .. | .build .. | .copy .. | .take .. | .setProperty .. | .configure .. | .change ..
  | .store .. | .clear _ => none

lemma slot?_put (s : Session) (slot k : String) (r : Repository) :
    (s.put slot r).slot? k = if k = slot then some r else s.slot? k :=
  lookup_cons_filter_ne slot k r s.slots

/-- A session all of whose repositories came about within a factory. -/
def AllMade (f : Factory) (s : Session) : Prop :=
  ∀ r, s.Holds r → f.Made r

lemma AllMade.put (h : s.AllMade f) (hr : f.Made r) (slot : String) : (s.put slot r).AllMade f := by
  rintro t (⟨k, hk⟩ | ht)
  · rw [slot?_put] at hk
    split_ifs at hk
    · cases hk
      exact hr
    · exact h t (.inl ⟨k, hk⟩)
  · exact h t (.inr ht)

lemma AllMade.keep (h : s.AllMade f) {built : Except Failure Repository × Nat}
    (hbuilt : ∀ r, built.1 = .ok r → f.Made r) (slot : String) :
    (s.keep slot built).2.AllMade f := by
  obtain ⟨(e | r), used⟩ := built
  · exact h
  · exact put (s := { s with roster := { s.roster with used } }) h (hbuilt r rfl) slot

lemma made_of_create {draft : Draft} {slot : String} {used : Nat}
    (hhanded : ∀ r, (Step.create draft slot).handed? = some r → f.Made r)
    (h : (f.create draft used).1 = .ok r) : f.Made r := by
  cases draft with
  | repository r =>
    cases h
    exact hhanded r rfl
  | value | resolver =>
    refine .created ?_ h
    rintro r ⟨⟩

lemma made_of_declare {op : Roster.Operation} {s : Roster}
    (hhanded : ∀ r, op.handed? = some r → f.Made r) (h : (s.run f op).1 = .ok r) : f.Made r := by
  cases hop : op.handed? with
  | none => exact .declared hop h
  | some handed =>
    obtain ⟨built, hbuilt, hsettled, -⟩ := Roster.run_eq_ok (Prod.ext h rfl)
    obtain rfl : op = .add (.repository handed) := by
      unfold Roster.Operation.handed? at hop
      split at hop <;> cases hop
      rfl
    cases hbuilt
    rw [hsettled.eq_withName]
    exact (hhanded handed rfl).withName r.name

lemma AllMade.declare (h : s.AllMade f) {op : Roster.Operation}
    (hhanded : ∀ r, op.handed? = some r → f.Made r) : (s.run f (.declare op)).2.AllMade f := by
  rintro t (ht | ht)
  · exact h t (.inl ht)
  · have hext := Roster.run_extends f op s.roster
    cases hrun : s.roster.run f op with
    | mk result roster =>
      rw [hrun] at hext
      replace ht : t ∈ roster.declared := by
        rwa [show (s.run f (.declare op)).2.roster = roster by rw [run, hrun]] at ht
      cases result with
      | error e =>
        rw [show roster.declared = s.roster.declared from hext] at ht
        exact h t (.inr ht)
      | ok u =>
        rw [hext.1, List.mem_append, List.mem_singleton] at ht
        rcases ht with ht | rfl
        · exact h t (.inr ht)
        · exact made_of_declare hhanded (congrArg Prod.fst hrun)

lemma AllMade.made_of_puts (h : s.AllMade f) {slot : String} (hputs : s.Puts step slot r) :
    f.Made r := by
  cases hputs with
  | copy hsource => exact h r (.inl ⟨_, hsource⟩)
  | take hname => exact h r (.inr (List.mem_of_find?_eq_some hname))
  | setProperty hslot ht => exact .assigned (h _ (.inl ⟨_, hslot⟩)) ht
  | configure hslot ht => exact .configured (h _ (.inl ⟨_, hslot⟩)) ht
  | change hslot ht => exact .changed (h _ (.inl ⟨_, hslot⟩)) ht

lemma AllMade.reuse (h : s.AllMade f) (hstep : step.reuses = true) : (s.run f step).2.AllMade f := by
  obtain heq | ⟨slot, r, hputs, heq⟩ := run_of_reuses hstep f s
  · rwa [heq]
  · rw [heq]
    exact h.put (h.made_of_puts hputs) slot

/-- What a step puts where, it built, found in the session, made of what it found there, or was
handed. -/
lemma AllMade.run (h : s.AllMade f) (hhanded : ∀ r, step.handed? = some r → f.Made r) :
    (s.run f step).2.AllMade f := by
  cases step with
  | build b slot => exact h.keep (fun r hr => .built hr) slot
  | create draft slot => exact h.keep (fun r hr => made_of_create hhanded hr) slot
  | declare op => exact h.declare hhanded
  | copy | take | setProperty | configure | change => exact h.reuse rfl
  | store | clear => exact h

lemma AllMade.runAll (h : s.AllMade f) {steps : List Step}
    (hhanded : ∀ step ∈ steps, ∀ r, step.handed? = some r → f.Made r) :
    (runAll f steps s).AllMade f := by
  induction steps generalizing s with
  | nil => exact h
  | cons step rest ih =>
    obtain ⟨hstep, hrest⟩ := List.forall_mem_cons.1 hhanded
    exact ih (h.run hstep) hrest

/-! ### The index -/

/-- What a step does to the index of the factory, if anything. -/
def Step.indexOperation? : Step → Option ResourceIndex.Operation
  | .store url r => some (.store url r)
  | .clear url => some (.clear url)
  | .build .. | .create .. | .copy .. | .take .. | .declare _ | .setProperty .. | .configure ..
  | .change .. => none

lemma indices_keep (s : Session) (slot : String) (built : Except Failure Repository × Nat) :
    (s.keep slot built).2.indices = s.indices := by
  obtain ⟨(e | r), used⟩ := built <;> rfl

/-- A step runs its operation on the index of the factory and leaves it otherwise as it is. -/
lemma indices_run (f : Factory) (step : Step) (s : Session) :
    (s.run f step).2.indices f.infrastructure.index =
      ResourceIndex.runAll step.indexOperation?.toList (s.indices f.infrastructure.index) := by
  cases step with
  | build b slot => exact congrFun (indices_keep s slot _) _
  | create draft slot => exact congrFun (indices_keep s slot _) _
  | declare op => rfl
  | store | clear => exact if_pos rfl
  | copy | take | setProperty | configure | change => exact congrFun (indices_run_of_reuses rfl f s) _

theorem indices_runAll (f : Factory) (steps : List Step) (s : Session) :
    (runAll f steps s).indices f.infrastructure.index =
      ResourceIndex.runAll (steps.filterMap Step.indexOperation?)
        (s.indices f.infrastructure.index) := by
  induction steps generalizing s with
  | nil => rfl
  | cons step rest ih =>
    change (runAll f rest (s.run f step).2).indices _ = _
    rw [ih, indices_run]
    cases hop : step.indexOperation? with
    | none =>
      rw [List.filterMap_cons_none hop]
      rfl
    | some op =>
      rw [List.filterMap_cons_some hop]
      rfl

/-- One index for everyone. An index is the finite map that the operations on it make of nothing;
and after any steps of a session the index of the factory is the one that its stores and clears
make. A Maven or an Ivy repository that came about within the factory, before or after any of them,
looks up in it what the factory does, and a write through the repository is one by the factory. All
repositories in slots and in the roster are such, copies and renamed ones included, if the finished
repositories that were handed over are. -/
theorem index_of_run (f : Factory) (steps : List Step) :
    (∀ ops, (ResourceIndex.runAll ops .empty).Reflects ops) ∧
    let s := runAll f steps {}
    (s.indices f.infrastructure.index).Reflects (steps.filterMap Step.indexOperation?) ∧
    (∀ r, f.Made r → r.kind = .maven ∨ r.kind = .ivy → ∃ own, r.infrastructure? = some own ∧
      (∀ url, s.lookup own.index url = s.lookup f.infrastructure.index url) ∧
      ∀ change, s.updateIndex own.index change = s.updateIndex f.infrastructure.index change) ∧
    ((∀ step ∈ steps, ∀ r, step.handed? = some r → f.Made r) → ∀ r, s.Holds r → f.Made r) := by
  refine ⟨ResourceIndex.reflects_runAll, ?_, ?_, ?_⟩
  · rw [indices_runAll]
    exact ResourceIndex.reflects_runAll _
  · intro r hr hkind
    exact ⟨f.infrastructure, hr.boundTo.infrastructure?_eq hkind, fun _ => rfl, fun _ => rfl⟩
  · intro hhanded
    exact AllMade.runAll (s := {}) (by rintro r (⟨slot, h⟩ | h) <;> cases h) hhanded

/-- A resource is stored and then an Ivy repository built, kept twice, handed over for a declaration
and renamed; what is under its new name looks the resource up, and nothing once it is cleared. -/
theorem index_of_run_with_copies :
    let f := namedHolders
    let ivy : Repository := .ivy (.fresh (f.holder 0) (.numbered 0))
    let steps := [.store "https://a.example.org/x.jar" ⟨⟨"/cache/x.jar"⟩, 1, none, some 12⟩,
      .build .ivy "a", .copy "a" "b", .declare (.add (.repository ivy)), .change "b" (.name "c")]
    let s := runAll f steps {}
    let cleared := runAll f (steps ++ [.clear "https://a.example.org/x.jar"]) {}
    (∀ step ∈ steps, ∀ r, step.handed? = some r → f.Made r) ∧
    ∃ r own, s.slot? "b" = some r ∧ r.name = "c" ∧ f.Made r ∧ r.infrastructure? = some own ∧
      s.lookup own.index "https://a.example.org/x.jar" =
        some ⟨⟨"/cache/x.jar"⟩, 1, none, some 12⟩ ∧
      cleared.lookup own.index "https://a.example.org/x.jar" = none := by
  intro f ivy steps s cleared
  have hivy : f.Made ivy := .built (show (f.build .ivy 0).1 = .ok ivy from rfl)
  have hhanded : ∀ step ∈ steps, ∀ r, step.handed? = some r → f.Made r := by
    simp [steps, Step.handed?, Roster.Operation.handed?, hivy]
  have hslot : s.slot? "b" = some (ivy.withName "c") := rfl
  obtain ⟨-, -, hshared, hmade⟩ := index_of_run f steps
  have hr := hmade hhanded _ (.inl ⟨"b", hslot⟩)
  obtain ⟨own, hown, hlookup, -⟩ := hshared _ hr (.inr rfl)
  refine ⟨hhanded, ivy.withName "c", own, hslot, rfl, hr, hown, ?_, ?_⟩
  · rw [hlookup]
    decide
  · obtain ⟨-, -, hshared, -⟩ := index_of_run f (steps ++ [.clear "https://a.example.org/x.jar"])
    obtain ⟨own', hown', hlookup', -⟩ := hshared _ hr (.inr rfl)
    rw [hown] at hown'
    cases hown'
    rw [hlookup']
    decide

end Session

end Depot
