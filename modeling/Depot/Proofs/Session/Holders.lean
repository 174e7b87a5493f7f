import Depot.Proofs.Roster.Holders
import Depot.Proofs.Session.Reuse

/-!
# Holders taken in a session

The factory of a session numbers the holders of credentials that it hands out. A step takes at most
one: it does if it starts to build a Maven or an Ivy repository, by whatever notation and even if it
fails then (`used_run`). So the number of the next holder is the count of such steps so far, and no
two repositories that were built apart have the same one (`Session.holders_of_run`).
-/

namespace Depot

open Roster (Request)

/-! ### Repositories without a draft -/

/-- The kind of the repositories of a blueprint. -/
def Blueprint.kind : Blueprint → Kind
  | .maven | .mavenCentral | .mavenLocal => .maven
  | .ivy => .ivy
  | .flatDir => .flatDir

namespace Factory

variable {f : Factory} {b : Blueprint} {used : Nat}

lemma used_build (f : Factory) (b : Blueprint) (used : Nat) :
    (f.build b used).2 = used + if b.kind.hasCredentials then 1 else 0 := by
  cases b with
  | mavenLocal => exact f.used_mavenLocal used
  | maven | mavenCentral | ivy | flatDir => rfl

lemma credentials?_of_build {r : Repository} (h : (f.build b used).1 = .ok r)
    (hb : b.kind.hasCredentials = true) : r.credentials? = some (f.holder used) := by
  cases b with
  | mavenLocal =>
    obtain ⟨r, hr, rfl⟩ := map_eq_ok.1 h
    obtain ⟨url, rfl⟩ := exists_url_of_mavenLocal hr
    rfl
  | flatDir => cases hb
  | maven | mavenCentral | ivy =>
    cases h
    rfl

end Factory

namespace Session

variable {f : Factory} {s t : Session} {r : Repository}

/-! ### Steps -/

/-- What a step starts to build: a kind of repository, and the properties for it. -/
def Step.plan? : Step → Option (Kind × Properties)
  | .build b _ => some (b.kind, .empty)
  | .create draft _ => (Request.ofDraft draft).plan?
  | .declare op => op.request.plan?
  | .copy .. | .take .. | .setProperty .. | .configure .. | .change .. | .store .. | .clear _ =>
    none

/-- Whether a step starts to build a repository with credentials. -/
def Step.mints (step : Step) : Bool :=
  step.plan?.any fun plan => plan.1.hasCredentials

lemma used_keep (s : Session) (slot : String) (built : Except Failure Repository × Nat) :
    (s.keep slot built).2.roster.used = built.2 := by
  obtain ⟨(e | r), used⟩ := built <;> rfl

lemma keep_eq_ok_iff {slot : String} {built : Except Failure Repository × Nat} :
    (s.keep slot built).1 = .ok (some r) ↔ built.1 = .ok r := by
  obtain ⟨(e | u), used⟩ := built <;> simp [keep]

lemma answer_declare_eq_ok_iff {op : Roster.Operation} :
    (s.run f (.declare op)).1 = .ok (some r) ↔ (s.roster.run f op).1 = .ok r := by
  change ((s.roster.run f op).1.mapError StepError.failed).map some = .ok (some r) ↔ _
  simp [map_eq_ok, mapError_eq_ok]

theorem used_run (f : Factory) (step : Step) (s : Session) :
    (s.run f step).2.roster.used = s.roster.used + if step.mints then 1 else 0 := by
  cases step with
  | build b slot =>
    rw [run, used_keep, Factory.used_build]
    rfl
  | create draft slot =>
    rw [run, used_keep, Roster.create_eq, Request.used_result]
    rfl
  | declare op => exact Roster.used_run f op s.roster
  | copy | take | setProperty | configure | change =>
    change (run f _ s).2.roster.used = s.roster.used
    rw [roster_run_of_reuses rfl]
  | store | clear => rfl

theorem equipped_of_run {step : Step} {k : Kind} {m : Properties}
    (hplan : step.plan? = some (k, m)) (hk : k.hasCredentials = true)
    (h : (s.run f step).1 = .ok (some r)) : Equipped m (f.holder s.roster.used) r := by
  cases step with
  | build b slot =>
    cases hplan
    exact equipped_empty (Factory.credentials?_of_build (keep_eq_ok_iff.1 h) hk)
  | create draft slot =>
    have hbuilt := keep_eq_ok_iff.1 h
    rw [Roster.create_eq] at hbuilt
    exact Request.equipped_of_result hplan hk hbuilt
  | declare op => exact Roster.equipped_of_run (answer_declare_eq_ok_iff.1 h) hplan hk
  | copy | take | setProperty | configure | change | store | clear => cases hplan

/-! ### Runs -/

/-- The session after some steps, whether they succeed or fail. -/
def runAll (f : Factory) (steps : List Step) (s : Session) : Session :=
  steps.foldl (fun s step => (s.run f step).2) s

lemma runAll_append (f : Factory) (before after : List Step) (s : Session) :
    runAll f (before ++ after) s = runAll f after (runAll f before s) :=
  List.foldl_append

theorem used_runAll (f : Factory) (steps : List Step) (s : Session) :
    (runAll f steps s).roster.used = s.roster.used + steps.countP Step.mints := by
  induction steps generalizing s with
  | nil => rfl
  | cons step rest ih =>
    change (runAll f rest (s.run f step).2).roster.used = _
    rw [ih, used_run, List.countP_cons]
    omega

/-- A step that is answered with a repository that it built and that has the holder taken for it,
as its properties give no credentials. -/
structure Mints (f : Factory) (s : Session) (step : Step) (r : Repository) : Prop where
  answer : (s.run f step).1 = .ok (some r)
  plan : ∃ k m, step.plan? = some (k, m) ∧ k.hasCredentials = true ∧ m.get? "credentials" = none

lemma Mints.mints {step : Step} (h : Mints f s step r) : step.mints = true := by
  obtain ⟨k, m, hplan, hk, -⟩ := h.plan
  rw [Step.mints, hplan]
  exact hk

lemma Mints.credentials?_eq {step : Step} (h : Mints f s step r) :
    r.credentials? = some (f.holder s.roster.used) := by
  obtain ⟨k, m, hplan, hk, hm⟩ := h.plan
  exact (equipped_of_run hplan hk h.answer).minted hm

/-- Holders of credentials in every run of a session. The next holder has the number of steps so far
that started to build a Maven or an Ivy repository, and the next step takes it exactly if it does so
too, whether or not it succeeds. The repository that it builds has the credentials of its properties
if they have some, and else this very holder, which no repository that is built later has. A
finished repository is passed on as it is. -/
theorem holders_of_run (f : Factory) (s : Session) (before : List Step) (step : Step) :
    let t := runAll f before s
    t.roster.used = s.roster.used + before.countP Step.mints ∧
    (t.run f step).2.roster.used = t.roster.used + (if step.mints then 1 else 0) ∧
    (∀ k m r, step.plan? = some (k, m) → k.hasCredentials = true →
      (t.run f step).1 = .ok (some r) → Equipped m (f.holder t.roster.used) r) ∧
    (∀ between later r r', Mints f t step r →
      Mints f (runAll f (before ++ step :: between) s) later r' →
        (∃ i j, i < j ∧ r.credentials? = some (f.holder i) ∧ r'.credentials? = some (f.holder j)) ∧
        (Function.Injective f.holder → r.credentials? ≠ r'.credentials?)) ∧
    ∀ r slot, t.run f (.create (.repository r) slot) = (.ok (some r), t.put slot r) := by
  intro t
  refine ⟨used_runAll f before s, used_run f step t, fun k m r => equipped_of_run, ?_, ?_⟩
  · intro between later r r' hr hr'
    have hlt : t.roster.used < (runAll f (before ++ step :: between) s).roster.used := by
      rw [runAll_append, used_runAll f (step :: between) t, List.countP_cons, if_pos hr.mints]
      omega
    refine ⟨⟨_, _, hlt, hr.credentials?_eq, hr'.credentials?_eq⟩, ?_⟩
    intro hinjective heq
    rw [hr.credentials?_eq, hr'.credentials?_eq, Option.some.injEq] at heq
    exact absurd (hinjective heq) (Nat.ne_of_lt hlt)
  · intro r slot
    rfl

/-- A factory without a local repository, whose holders are told apart by their user names. -/
def namedHolders : Factory :=
  ⟨fun _ => .error "no home directory", ⟨"/"⟩,
    fun n => { username := some (Roster.numbered "user" n) }, .numbered 0⟩

/-- An entry that fails, a repository without credentials, an entry that succeeds, an entry that is
refused for its name, and a draft. -/
theorem holders_of_run_with_failures :
    let before := [.declare (.declare (.string "mavenLocal")), .build .flatDir "libs"]
    let step := .declare (.declare (.string "https://a.example.org"))
    let between := [.declare (.declare (.object [("name", .string "maven")]))]
    let later := .create (.value (.string "https://b.example.org")) "b"
    let t := runAll namedHolders before {}
    let u := runAll namedHolders (before ++ step :: between) {}
    t.roster.used = 1 ∧ u.roster.used = 3 ∧
    ∃ r r', Mints namedHolders t step r ∧ Mints namedHolders u later r' ∧
      Function.Injective namedHolders.holder ∧ r.credentials? ≠ r'.credentials? := by
  intro before step between later t u
  have hr : Mints namedHolders t step (.maven { MavenRepository.fresh (namedHolders.holder 1)
      (.numbered 0) with url := some "https://a.example.org" }) :=
    ⟨rfl, _, _, rfl, rfl, rfl⟩
  have hr' : Mints namedHolders u later (.maven { MavenRepository.fresh (namedHolders.holder 3)
      (.numbered 0) with url := some "https://b.example.org" }) :=
    ⟨rfl, _, _, rfl, rfl, rfl⟩
  have hinjective : Function.Injective namedHolders.holder := by
    intro i j h
    exact Roster.numbered_injective "user" (Option.some.inj (congrArg Credentials.username h))
  exact ⟨rfl, rfl, _, _, hr, hr', hinjective,
    ((holders_of_run namedHolders {} before step).2.2.2.1 between later _ _ hr hr').2 hinjective⟩

end Session

end Depot
