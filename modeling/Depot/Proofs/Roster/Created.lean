import Depot.Proofs.Roster.Holders
import Depot.Proofs.Roster.Numbering

/-!
# Building first and adding later

A draft can be added to a roster as it is, or the factory can build its repository and this be added
in its place. Whether the name was given is told by the draft in the first case, and in the second
by the name that the repository has. The two agree unless a map gives the name that Maven
repositories have by default: it is then a given name of the draft and the default one of the
repository. This makes a difference where the name is taken, and nowhere else (`add_created`).
-/

namespace Depot

/-- A map that gives its repository the name that Maven repositories have by default. -/
def Draft.NamesMaven (draft : Draft) : Prop :=
  ∃ fields, draft = .value (.object fields) ∧
    (Properties.ofList fields).get? "name" = some (.string "maven")

lemma Repository.hasDefaultName_iff {r : Repository} (h : r.kind = .maven) :
    r.hasDefaultName = true ↔ r.name = "maven" := by
  cases r with
  | maven r => exact beq_iff_eq
  | ivy | flatDir | custom => cases h

namespace Roster

variable {f : Factory} {s t : Roster} {draft : Draft} {used : Nat} {r : Repository}
  {m : Properties}

/-! ### Whether the name was given -/

lemma contains_name_eq (h : (Shorthand.maven.build f m used).1 = .ok r)
    (hm : m.get? "name" ≠ some (.string "maven")) : m.contains "name" = !r.hasDefaultName := by
  obtain ⟨hkind, hgiven, hbase⟩ := Shorthand.kind_and_name_of_build h
  have hdefault := Repository.hasDefaultName_iff hkind
  cases hname : m.get? "name" with
  | none =>
    have hcontains : m.contains "name" = false := Properties.contains_eq_false_iff.2 hname
    rw [hcontains, hdefault.2 (hbase hname), Bool.not_true]
  | some v =>
    have hcontains : m.contains "name" = true := Properties.contains_iff.2 ⟨v, hname⟩
    have hne : r.name ≠ "maven" := by
      rintro heq
      rw [hname, hgiven v hname, heq] at hm
      exact hm rfl
    rw [hcontains, Bool.eq_false_iff.2 (mt hdefault.1 hne), Bool.not_false]

/-- What a draft says of its name can be read off the finished repository. -/
lemma namesExplicitly_eq_not_hasDefaultName (h : (f.create draft used).1 = .ok r)
    (hdraft : ¬ draft.NamesMaven) : draft.namesExplicitly = !r.hasDefaultName := by
  rw [create_eq] at h
  rw [namesExplicitly_eq]
  cases draft with
  | repository r' =>
    cases h
    rfl
  | resolver name =>
    cases h
    rfl
  | value v =>
    cases v with
    | string url =>
      have hnone : (Request.urlOnly url).get? "name" = none := rfl
      exact contains_name_eq h (by simp [hnone])
    | object fields => exact contains_name_eq h fun hname => hdraft ⟨fields, rfl, hname⟩
    | null | bool | number | array => cases h

/-- A map that gives the default name settles it, and its repository looks as if it had none. -/
lemma name_of_namesMaven (h : (f.create draft used).1 = .ok r) (hdraft : draft.NamesMaven) :
    r.name = "maven" ∧ draft.namesExplicitly = true ∧ r.hasDefaultName = true := by
  obtain ⟨fields, rfl, hname⟩ := hdraft
  rw [create_eq] at h
  obtain ⟨hkind, hgiven, -⟩ := Shorthand.kind_and_name_of_build h
  have heq : "maven" = r.name := Json.string.inj (hgiven _ hname)
  exact ⟨heq.symm, Properties.contains_iff.2 ⟨_, hname⟩,
    (Repository.hasDefaultName_iff hkind).2 heq.symm⟩

/-! ### Adding -/

/-- A draft never asks for the local repository. -/
lemma Request.ofDraft_ne_mavenLocal (draft : Draft) (m : Properties) :
    ofDraft draft ≠ .build .mavenLocal m := by
  cases draft with
  | value v => cases v <;> nofun
  | resolver name => nofun
  | repository r => nofun

/-- A draft is entered as the repository that was built for it, at whatever time that was. -/
lemma add_sameOutcome_enter (h : (f.create draft used).1 = .ok r)
    (hholder : f.holder used = f.holder s.used) :
    SameOutcome (s.add f draft) (s.enter r draft.namesExplicitly) := by
  have hcreate : (f.create draft s.used).1 = .ok r := by
    rw [← h, create_eq, create_eq,
      Request.result_congr hholder fun m hm => absurd hm (Request.ofDraft_ne_mavenLocal draft m)]
  have hpair : f.create draft s.used = (.ok r, (f.create draft s.used).2) := Prod.ext hcreate rfl
  rw [add, hpair]
  exact enter_sameOutcome (s := { s with used := (f.create draft s.used).2 }) (t := s) rfl r _

lemma add_repository_sameOutcome_enter (ht : t.declared = s.declared) :
    SameOutcome (t.add f (.repository r)) (s.enter r (!r.hasDefaultName)) :=
  enter_sameOutcome ht r _

/-- Where the default name is taken, a map that gives it is refused. -/
lemma add_of_namesMaven (hcreate : (f.create draft used).1 = .ok r)
    (hholder : f.holder used = f.holder s.used) (hdraft : draft.NamesMaven)
    (htaken : "maven" ∈ s.names) :
    SameOutcome (s.add f draft) (.error (.duplicateRepository "maven"), s) := by
  obtain ⟨hname, hexplicit, -⟩ := name_of_namesMaven hcreate hdraft
  have hsame := add_sameOutcome_enter hcreate hholder
  rw [hexplicit, enter_of_given (by rwa [hname]), hname] at hsame
  exact hsame

/-- The repository that was built for it is not. -/
lemma add_repository_of_namesMaven (hcreate : (f.create draft used).1 = .ok r)
    (ht : t.declared = s.declared) (hdraft : draft.NamesMaven) (htaken : "maven" ∈ s.names)
    {n : Nat} (hn : s.LeastFree "maven" n) :
    SameOutcome (t.add f (.repository r))
      (.ok (r.withName (numbered "maven" n)), s.push (r.withName (numbered "maven" n))) := by
  obtain ⟨hname, -, hdefault⟩ := name_of_namesMaven hcreate hdraft
  have hsame := add_repository_sameOutcome_enter (f := f) (r := r) ht
  rw [hdefault, Bool.not_true, enter_of_taken (by rwa [hname]) (by rwa [hname]), hname] at hsame
  exact hsame

/-- Adding a draft and adding the repository that was built for it, before or after, on the same
repositories, come to the same, unless the draft is a map that gives the default name of Maven
repositories and this name is taken. The draft is then refused, and the repository is added under
the least free number. -/
theorem add_created (hcreate : (f.create draft used).1 = .ok r)
    (hholder : f.holder used = f.holder s.used) (ht : t.declared = s.declared) :
    (SameOutcome (s.add f draft) (t.add f (.repository r)) ↔
      ¬ (draft.NamesMaven ∧ "maven" ∈ s.names)) ∧
    (draft.NamesMaven → "maven" ∈ s.names →
      SameOutcome (s.add f draft) (.error (.duplicateRepository "maven"), s) ∧
      ∃ n, s.LeastFree "maven" n ∧ SameOutcome (t.add f (.repository r))
        (.ok (r.withName (numbered "maven" n)), s.push (r.withName (numbered "maven" n)))) := by
  have hexception : draft.NamesMaven → "maven" ∈ s.names →
      SameOutcome (s.add f draft) (.error (.duplicateRepository "maven"), s) ∧
      ∃ n, s.LeastFree "maven" n ∧ SameOutcome (t.add f (.repository r))
        (.ok (r.withName (numbered "maven" n)), s.push (r.withName (numbered "maven" n))) := by
    intro hdraft htaken
    obtain ⟨n, hn, -, -⟩ := freeName_spec htaken
    exact ⟨add_of_namesMaven hcreate hholder hdraft htaken, n, hn,
      add_repository_of_namesMaven hcreate ht hdraft htaken hn⟩
  refine ⟨⟨?_, ?_⟩, hexception⟩
  · rintro hsame ⟨hdraft, htaken⟩
    obtain ⟨hrefused, n, -, hadded⟩ := hexception hdraft htaken
    cases hrefused.1.symm.trans (hsame.1.trans hadded.1)
  · intro hnot
    have henter : s.enter r draft.namesExplicitly = s.enter r (!r.hasDefaultName) := by
      by_cases hdraft : draft.NamesMaven
      · -- The name is free, and then it makes no difference whether it was given.
        obtain ⟨hname, -, -⟩ := name_of_namesMaven hcreate hdraft
        have hfree : r.name ∉ s.names := by
          rw [hname]
          exact fun htaken => hnot ⟨hdraft, htaken⟩
        rw [enter_of_free hfree, enter_of_free hfree]
      · rw [namesExplicitly_eq_not_hasDefaultName hcreate hdraft]
    have hsame := add_sameOutcome_enter hcreate hholder
    rw [henter] at hsame
    exact hsame.trans (add_repository_sameOutcome_enter ht).symm

/-- The default name given by a map and by a resolver, where it is taken. The map and its repository
part ways, and the resolver is refused in both ways. -/
theorem add_created_default_taken :
    let s := runAll withoutLocal [.declare (.string "https://a.example.org")] {}
    let t := { s with used := s.used + 1 }
    let map := Draft.value
      (.object [("name", .string "maven"), ("url", .string "https://b.example.org")])
    let resolver := Draft.resolver "maven"
    ∃ r r', (withoutLocal.create map s.used).1 = .ok r ∧
      (withoutLocal.create resolver s.used).1 = .ok r' ∧
      (map.NamesMaven ∧ "maven" ∈ s.names) ∧
      ¬ SameOutcome (s.add withoutLocal map) (t.add withoutLocal (.repository r)) ∧
      (t.add withoutLocal (.repository r)).2.names = ["maven", "maven2"] ∧
      SameOutcome (s.add withoutLocal resolver) (t.add withoutLocal (.repository r')) ∧
      (s.add withoutLocal resolver).1 = .error (.duplicateRepository "maven") := by
  intro s t map resolver
  have hmap : (withoutLocal.create map s.used).1 = .ok _ := rfl
  have hresolver : (withoutLocal.create resolver s.used).1 = .ok _ := rfl
  have hnames : map.NamesMaven ∧ "maven" ∈ s.names := ⟨⟨_, rfl, rfl⟩, by decide⟩
  have hother : ¬ (resolver.NamesMaven ∧ "maven" ∈ s.names) := by
    rintro ⟨⟨fields, hfields, -⟩, -⟩
    exact Draft.noConfusion hfields
  have hparts := (add_created (t := t) hmap rfl rfl).1
  have hagrees := (add_created (t := t) hresolver rfl rfl).1
  exact ⟨_, _, hmap, hresolver, hnames, fun hsame => hparts.1 hsame hnames, rfl,
    hagrees.2 hother, rfl⟩

end Roster

end Depot
