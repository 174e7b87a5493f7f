import Depot.Proofs.Roster.Request

/-!
# Holders taken by one operation

A request that starts to build a Maven or an Ivy repository takes one holder of credentials, whether
or not it succeeds, and any other request takes none (`used_run`). What is built has the holder that
was taken for it, or the credentials of its property map if the map has some (`Equipped`). The
number of holders matters in no other way to a factory that hands out empty ones and has a fixed
locator (`Factory.Steady`): rosters with the same repositories are answered alike (`SameOutcome`).
-/

namespace Depot

/-- Whether the repositories of a kind have credentials. -/
def Kind.hasCredentials : Kind → Bool
  | .maven | .ivy => true
  | .flatDir | .custom => false

/-- The credentials of a repository that was built with a holder and a property map: the map gives
all of them if it has the key, and else they are the holder. -/
structure Equipped (m : Properties) (holder : Credentials) (r : Repository) : Prop where
  minted : m.get? "credentials" = none → r.credentials? = some holder
  given : ∀ v, m.get? "credentials" = some v → ∃ fields c, v = .object fields ∧
    (Properties.ofList fields).Gives c ∧ r.credentials? = some c

@[simp] lemma Repository.credentials?_withName (name : String) (r : Repository) :
    (r.withName name).credentials? = r.credentials? := by
  cases r <;> rfl

lemma Equipped.withName {m : Properties} {holder : Credentials} {r : Repository}
    (h : Equipped m holder r) (name : String) : Equipped m holder (r.withName name) where
  minted hm := (r.credentials?_withName name).trans (h.minted hm)
  given v hv := by
    obtain ⟨fields, c, hfields, hc, hr⟩ := h.given v hv
    exact ⟨fields, c, hfields, hc, (r.credentials?_withName name).trans hr⟩

lemma equipped_empty {holder : Credentials} {r : Repository} (h : r.credentials? = some holder) :
    Equipped .empty holder r where
  minted _ := h
  given _ hv := nomatch hv

namespace Roster

/-! ### Building -/

namespace Shorthand

lemma holders_eq (w : Shorthand) : w.holders = if w.kind.hasCredentials then 1 else 0 := by
  cases w <;> rfl

lemma credentials?_of_blank {w : Shorthand} {f : Factory} {used : Nat} {r : Repository}
    (h : w.blank f used = .ok r) (hw : w.kind.hasCredentials = true) :
    r.credentials? = some (f.holder used) := by
  cases w with
  | mavenLocal =>
    obtain ⟨r, hr, rfl⟩ := map_eq_ok.1 h
    obtain ⟨url, rfl⟩ := Factory.exists_url_of_mavenLocal hr
    rfl
  | flatDir => cases hw
  | _ =>
    cases h
    rfl

lemma equipped_of_build {w : Shorthand} {f : Factory} {m : Properties} {used : Nat}
    {r : Repository} (h : (w.build f m used).1 = .ok r) (hw : w.kind.hasCredentials = true) :
    Equipped m (f.holder used) r := by
  obtain ⟨blank, hblank, hall⟩ := build_eq_ok_iff.1 h
  obtain ⟨hgiven, hkept⟩ := hall.credentials_eq m.nodup_keys
  constructor
  · intro hnone
    rw [← credentials?_of_blank hblank hw]
    refine hkept fun v hv => ?_
    rw [← Properties.get?_eq_some_iff, hnone] at hv
    cases hv
  · intro v hv
    exact hgiven v (Properties.get?_eq_some_iff.1 hv)

end Shorthand

/-! ### Requests -/

namespace Request

/-- What a request starts to build: a kind of repository, and the properties for it. -/
def plan? : Request → Option (Kind × Properties)
  | .build w m => some (w.kind, m)
  | .existing _ | .resolver _ | .refused _ => none

/-- Whether a request takes a holder of credentials. -/
def mints (q : Request) : Bool :=
  q.plan?.any fun plan => plan.1.hasCredentials

lemma used_result (q : Request) (f : Factory) (used : Nat) :
    (q.result f used).2 = used + if q.mints then 1 else 0 := by
  cases q with
  | build w m => exact congrArg (used + ·) w.holders_eq
  | existing | resolver | refused => rfl

/-- What is built depends on the number of holders by the next one, and by where the local repository
is if it is asked for. -/
lemma result_congr {f : Factory} {used used' : Nat} (h : f.holder used = f.holder used')
    {q : Request} (hlocate : ∀ m, q = .build .mavenLocal m → f.locate used = f.locate used') :
    (q.result f used).1 = (q.result f used').1 := by
  have hmaven : (f.maven used).1 = (f.maven used').1 := by
    simp only [Factory.maven, h]
  have hivy : (f.ivy used).1 = (f.ivy used').1 := by
    simp only [Factory.ivy, h]
  cases q with
  | build w m =>
    have hblank : w.blank f used = w.blank f used' := by
      cases w with
      | maven => simp only [Shorthand.blank, hmaven]
      | ivy => simp only [Shorthand.blank, hivy]
      | flatDir => rfl
      | mavenCentral => simp only [Shorthand.blank, Factory.mavenCentral, hmaven]
      | mavenLocal =>
        simp only [Shorthand.blank, Factory.mavenLocal, hmaven, hlocate m rfl]
        cases f.locate used' <;> rfl
    simp only [result, Shorthand.build, hblank]
  | existing | resolver | refused => rfl

lemma result_of_steady {f : Factory} (hf : f.Steady) (q : Request) (used used' : Nat) :
    (q.result f used).1 = (q.result f used').1 :=
  result_congr (by rw [hf.holder]) fun _ _ => hf.locate used used'

lemma equipped_of_result {q : Request} {k : Kind} {m : Properties} (hplan : q.plan? = some (k, m))
    (hk : k.hasCredentials = true) {f : Factory} {used : Nat} {r : Repository}
    (h : (q.result f used).1 = .ok r) : Equipped m (f.holder used) r := by
  cases q with
  | build w m =>
    cases hplan
    exact Shorthand.equipped_of_build h hk
  | existing | resolver | refused => cases hplan

end Request

/-! ### Operations -/

lemma used_enter (s : Roster) (r : Repository) (explicit : Bool) :
    (s.enter r explicit).2.used = s.used := by
  cases h : s.enter r explicit with
  | mk result t =>
    cases result with
    | ok u =>
      obtain ⟨-, rfl⟩ := enter_eq_ok_iff.1 h
      rfl
    | error e =>
      obtain ⟨-, -, rfl⟩ := enter_eq_error_iff.1 h
      rfl

lemma used_enterResult (s : Roster) (explicit : Bool) (built : Except Failure Repository × Nat) :
    (s.enterResult explicit built).2.used = built.2 := by
  obtain ⟨(e | r), used⟩ := built
  · rfl
  · exact used_enter { s with used } r explicit

theorem used_run (f : Factory) (op : Operation) (s : Roster) :
    (s.run f op).2.used = s.used + if op.request.mints then 1 else 0 := by
  rw [run_eq, Request.run, used_enterResult, Request.used_result]

theorem equipped_of_run {f : Factory} {op : Operation} {s : Roster} {r : Repository} {k : Kind}
    {m : Properties} (h : (s.run f op).1 = .ok r) (hplan : op.request.plan? = some (k, m))
    (hk : k.hasCredentials = true) : Equipped m (f.holder s.used) r := by
  obtain ⟨built, hbuilt, hsettled, -⟩ := run_eq_ok (Prod.ext h rfl)
  rw [hsettled.eq_withName]
  exact (Request.equipped_of_result hplan hk hbuilt).withName r.name

/-! ### Rosters that differ in their number of holders -/

/-- Outcomes with the same answer and the same repositories, however many holders were handed out
for them. -/
def SameOutcome {α : Type} (o o' : Except Failure α × Roster) : Prop :=
  o.1 = o'.1 ∧ o.2.declared = o'.2.declared

lemma SameOutcome.symm {α : Type} {o o' : Except Failure α × Roster} (h : SameOutcome o o') :
    SameOutcome o' o :=
  ⟨h.1.symm, h.2.symm⟩

lemma SameOutcome.trans {α : Type} {o o' o'' : Except Failure α × Roster} (h : SameOutcome o o')
    (h' : SameOutcome o' o'') : SameOutcome o o'' :=
  ⟨h.1.trans h'.1, h.2.trans h'.2⟩

lemma enter_sameOutcome {s t : Roster} (h : s.declared = t.declared) (r : Repository)
    (explicit : Bool) : SameOutcome (s.enter r explicit) (t.enter r explicit) := by
  have htakes : s.takes r.name = t.takes r.name := by
    rw [takes, takes, h]
  have hfree : s.freeName r.name = t.freeName r.name := by
    simp only [freeName, takes, h]
  rw [enter, enter, htakes, hfree, h]
  split_ifs
  · exact ⟨rfl, rfl⟩
  · exact ⟨rfl, h⟩
  · exact ⟨rfl, rfl⟩

lemma enterResult_sameOutcome {s t : Roster} (h : s.declared = t.declared) (explicit : Bool)
    {built built' : Except Failure Repository × Nat} (hbuilt : built.1 = built'.1) :
    SameOutcome (s.enterResult explicit built) (t.enterResult explicit built') := by
  obtain ⟨result, used⟩ := built
  obtain ⟨_, used'⟩ := built'
  subst hbuilt
  cases result with
  | error e => exact ⟨rfl, h⟩
  | ok r =>
    exact enter_sameOutcome (s := { s with used }) (t := { t with used := used' }) h r explicit

theorem run_sameOutcome {f : Factory} {s t : Roster} (h : s.declared = t.declared)
    (hf : f.Steady) (op : Operation) : SameOutcome (s.run f op) (t.run f op) := by
  rw [run_eq, run_eq, Request.run, Request.run]
  exact enterResult_sameOutcome h _ (Request.result_of_steady hf _ _ _)

end Roster

end Depot
