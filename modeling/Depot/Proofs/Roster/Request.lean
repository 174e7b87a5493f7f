import Depot.Proofs.Configuration.Map
import Depot.Proofs.Roster.Entering

/-!
# Requests

However it is written, an operation comes down to one of four requests: build a repository of a
shorthand from a property map, take a finished one, wrap a resolver, or be refused for its shape.
`run_eq` says that every operation builds what its request asks for and then enters it; what is
proved of requests holds of all notations.
-/

namespace Depot

/-! ### The factory -/

namespace Factory

/-- A factory that hands out empty holders and locates the local repository in one way at all
times. -/
structure Steady (f : Factory) : Prop where
  holder : f.holder = fun _ => .empty
  locate : ∀ m n, f.locate m = f.locate n

/-- A local repository is a Maven repository of the factory at some URL. -/
lemma exists_url_of_mavenLocal {f : Factory} {used : Nat} {r : MavenRepository}
    (h : (f.mavenLocal used).1 = .ok r) : ∃ url, r = { (f.maven used).1 with url := some url } := by
  rw [mavenLocal] at h
  cases hlocate : f.locate used with
  | error message =>
    rw [hlocate] at h
    cases h
  | ok location =>
    rw [hlocate] at h
    obtain ⟨url, -, rfl⟩ := map_eq_ok.1 h
    exact ⟨url, rfl⟩

lemma used_mavenLocal (f : Factory) (used : Nat) : (f.mavenLocal used).2 = used + 1 := by
  rw [mavenLocal]
  cases f.locate used <;> rfl

end Factory

namespace Roster

/-! ### Shorthands -/

namespace Shorthand

/-- The name that a repository of a shorthand gets when none is given. -/
def base : Shorthand → String
  | .mavenCentral => mavenCentralName
  | .mavenLocal => mavenLocalName
  | .maven => MavenRepository.defaultName
  | .ivy => IvyRepository.defaultName
  | .flatDir => FlatDirRepository.defaultName

/-- The kind of the repositories of a shorthand. -/
def kind : Shorthand → Kind
  | .mavenCentral | .mavenLocal | .maven => .maven
  | .ivy => .ivy
  | .flatDir => .flatDir

/-- The repository of a shorthand before any property is assigned. -/
def blank (w : Shorthand) (f : Factory) (used : Nat) : Except Failure Repository :=
  match w with
  | .mavenCentral => .ok (.maven { (f.mavenCentral used).1 with name := mavenCentralName })
  | .mavenLocal => (f.mavenLocal used).1.map fun r => .maven { r with name := mavenLocalName }
  | .maven => .ok (.maven (f.maven used).1)
  | .ivy => .ok (.ivy (f.ivy used).1)
  | .flatDir => .ok (.flatDir f.flatDir)

/-- The number of holders of credentials that a repository of a shorthand takes. -/
def holders : Shorthand → Nat
  | .flatDir => 0
  | .mavenCentral | .mavenLocal | .maven | .ivy => 1

/-- The repository of a shorthand, configured by a property map. -/
def build (w : Shorthand) (f : Factory) (m : Properties) (used : Nat) :
    Except Failure Repository × Nat :=
  ((w.blank f used).bind (configured · m), used + w.holders)

theorem declare_eq (w : Shorthand) (f : Factory) (m : Properties) (s : Roster) :
    w.declare f m s = s.enterResult (m.contains "name") (w.build f m s.used) := by
  cases w with
  | mavenCentral | maven =>
    simp only [build, blank, Except.bind, Repository.configured_maven]
    rfl
  | ivy =>
    simp only [build, blank, Except.bind, Repository.configured_ivy]
    rfl
  | flatDir =>
    simp only [build, blank, Except.bind, Repository.configured_flatDir]
    rfl
  | mavenLocal =>
    have hbuild : ∀ r : Except Failure MavenRepository,
        ((r.bind fun r => configured { r with name := mavenLocalName } m).map .maven) =
          (r.map fun r => Repository.maven { r with name := mavenLocalName }).bind
            (configured · m) := by
      rintro (e | r)
      · rfl
      · exact (Repository.configured_maven _ m).symm
    change s.enterResult (m.contains "name") (_, (f.mavenLocal s.used).2) = _
    rw [hbuild, f.used_mavenLocal]
    rfl

lemma kind_of_blank {w : Shorthand} {f : Factory} {used : Nat} {r : Repository}
    (h : w.blank f used = .ok r) : r.kind = w.kind := by
  cases w with
  | mavenLocal =>
    obtain ⟨r, -, rfl⟩ := map_eq_ok.1 h
    rfl
  | _ =>
    cases h
    rfl

lemma name_of_blank {w : Shorthand} {f : Factory} {used : Nat} {r : Repository}
    (h : w.blank f used = .ok r) : r.name = w.base := by
  cases w with
  | mavenLocal =>
    obtain ⟨r, -, rfl⟩ := map_eq_ok.1 h
    rfl
  | _ =>
    cases h
    rfl

/-- A repository that was built of a shorthand came from its blank by the entries of the map. -/
lemma build_eq_ok_iff {w : Shorthand} {f : Factory} {m : Properties} {used : Nat}
    {r : Repository} : (w.build f m used).1 = .ok r ↔
      ∃ blank, w.blank f used = .ok blank ∧ blank.AssignedAll m.entries r := by
  simp only [build, ← Repository.configured_eq_ok_iff]
  exact bind_eq_ok

end Shorthand

/-! ### Requests -/

/-- What an operation comes down to. -/
inductive Request where
  | build (w : Shorthand) (m : Properties)
  | existing (r : Repository)
  | resolver (name : String)
  | refused (e : Failure)

namespace Request

/-- The property map of a URL by itself. -/
def urlOnly (url : String) : Properties :=
  Properties.ofList [("url", .string url)]

/-- The request of a value that is no shorthand: a string is the URL of a Maven repository, and an
object its properties. -/
def ofValue : Json → Request
  | .string url => .build .maven (urlOnly url)
  | .object fields => .build .maven (Properties.ofList fields)
  | other => .refused (.unsupportedDescriptor other.compact)

/-- The request of a draft. -/
def ofDraft : Draft → Request
  | .value v => ofValue v
  | .resolver name => .resolver name
  | .repository r => .existing r

/-- The request of a shorthand with a value behind it. -/
def ofShorthand (w : Shorthand) : Json → Request
  | .null => .build w .empty
  | .object fields => .build w (Properties.ofList fields)
  | other =>
    .refused (.invalidConfig s!"'{w.text}' expects a map of properties, got {other.compact}")

/-- The request of an entry: the two words, an object with a shorthand as its only key, or any other
value. -/
def ofEntry : Json → Request
  | .string "mavenCentral" => .build .mavenCentral .empty
  | .string "mavenLocal" => .build .mavenLocal .empty
  | .object fields =>
    match (Properties.ofList fields).entries with
    | [(key, config)] =>
      match Shorthand.ofText? key with
      | some w => ofShorthand w config
      | none => ofValue (.object fields)
    | _ => ofValue (.object fields)
  | other => ofValue other

/-- Whether a request settles the name of its repository. -/
def explicit : Request → Bool
  | .build _ m => m.contains "name"
  | .existing r => !r.hasDefaultName
  | .resolver _ => true
  | .refused _ => false

/-- What a request is answered with before it is entered, and the number of holders taken then. -/
def result (q : Request) (f : Factory) (used : Nat) : Except Failure Repository × Nat :=
  match q with
  | .build w m => w.build f m used
  | .existing r => (.ok r, used)
  | .resolver name => (.ok (.custom (f.custom name)), used)
  | .refused e => (.error e, used)

/-- Enters what a request asks for. -/
def run (q : Request) (f : Factory) (s : Roster) : Except Failure Repository × Roster :=
  s.enterResult q.explicit (q.result f s.used)

end Request

/-- The request of an operation. -/
def Operation.request : Operation → Request
  | .shorthand w m => .build w m
  | .add draft => .ofDraft draft
  | .declare entry => .ofEntry entry

/-! ### All notations come down to requests -/

lemma Shorthand.run_build (w : Shorthand) (f : Factory) (m : Properties) (s : Roster) :
    (Request.build w m).run f s = w.declare f m s :=
  (w.declare_eq f m s).symm

lemma create_eq (f : Factory) (draft : Draft) (used : Nat) :
    f.create draft used = (Request.ofDraft draft).result f used := by
  cases draft with
  | value v =>
    cases v with
    | string url => rfl
    | object fields =>
      simp only [Request.ofDraft, Request.ofValue, Request.result, Shorthand.build, Shorthand.blank,
        Except.bind, Repository.configured_maven]
      rfl
    | null | bool | number | array => rfl
  | resolver name => rfl
  | repository r => rfl

lemma namesExplicitly_eq (draft : Draft) :
    draft.namesExplicitly = (Request.ofDraft draft).explicit := by
  cases draft with
  | value v => cases v <;> rfl
  | resolver name => rfl
  | repository r => rfl

lemma add_eq (f : Factory) (draft : Draft) (s : Roster) :
    s.add f draft = (Request.ofDraft draft).run f s := by
  rw [add, create_eq, namesExplicitly_eq, Request.run]

lemma add_value_eq (f : Factory) (v : Json) (s : Roster) :
    s.add f (.value v) = (Request.ofValue v).run f s :=
  add_eq f (.value v) s

lemma Shorthand.run_ofShorthand (w : Shorthand) (f : Factory) (config : Json) (s : Roster) :
    (Request.ofShorthand w config).run f s =
      match w.properties config with
      | .ok m => w.declare f m s
      | .error e => (.error e, s) := by
  cases config with
  | null | object => exact w.run_build f _ s
  | bool | number | string | array => rfl

lemma shorthand?_string {t : String} (hc : t ≠ "mavenCentral") (hl : t ≠ "mavenLocal") :
    shorthand? (.string t) = none := by
  unfold shorthand?
  split <;> simp_all

lemma Request.ofEntry_string {t : String} (hc : t ≠ "mavenCentral") (hl : t ≠ "mavenLocal") :
    ofEntry (.string t) = ofValue (.string t) := by
  unfold ofEntry
  split <;> simp_all

lemma declare_eq (f : Factory) (entry : Json) (s : Roster) :
    s.declare f entry = (Request.ofEntry entry).run f s := by
  cases entry with
  | string t =>
    by_cases hc : t = "mavenCentral"
    · subst hc
      exact (Shorthand.run_build .mavenCentral f .empty s).symm
    · by_cases hl : t = "mavenLocal"
      · subst hl
        exact (Shorthand.run_build .mavenLocal f .empty s).symm
      · rw [declare, shorthand?_string hc hl, Request.ofEntry_string hc hl]
        exact add_value_eq f _ s
  | object fields =>
    simp only [declare, shorthand?, Request.ofEntry]
    cases (Properties.ofList fields).entries with
    | nil => exact add_value_eq f _ s
    | cons e rest =>
      obtain ⟨key, config⟩ := e
      cases rest with
      | cons => exact add_value_eq f _ s
      | nil =>
        dsimp only
        cases Shorthand.ofText? key with
        | some w => exact (w.run_ofShorthand f config s).symm
        | none => exact add_value_eq f _ s
  | null | bool | number | array => exact add_value_eq f _ s

/-- Every operation builds what its request asks for and enters it. -/
theorem run_eq (f : Factory) (op : Operation) (s : Roster) :
    s.run f op = op.request.run f s := by
  cases op with
  | shorthand w m => exact (w.run_build f m s).symm
  | add draft => exact add_eq f draft s
  | declare entry => exact declare_eq f entry s

/-- A success is what was built, settled into the roster. -/
lemma run_eq_ok {f : Factory} {op : Operation} {s t : Roster} {r : Repository}
    (h : s.run f op = (.ok r, t)) : ∃ built, (op.request.result f s.used).1 = .ok built ∧
      s.Settled built op.request.explicit r ∧ t.declared = s.declared ++ [r] := by
  rw [run_eq, Request.run] at h
  generalize op.request.result f s.used = result at h
  obtain ⟨(e | built), used⟩ := result
  · cases h
  · obtain ⟨hsettled, rfl⟩ := enter_eq_ok_iff.1 h
    exact ⟨built, rfl, hsettled.of_used, rfl⟩

end Roster

end Depot
