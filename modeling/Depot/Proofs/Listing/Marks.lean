import Depot.Proofs.Listing.Lines
import Depot.Proofs.Roster.Directories
import Depot.Proofs.Roster.Holders

/-!
# The mark of authentication

A row is marked if the entry of its repository gives a user name or a password. The header for basic
authorization needs the user name, so that the mark promises a header that is not there exactly if
an entry gives a password alone (`Command.marks_by_credentials`, `Command.marked_by_password`).
-/

namespace Depot

open Roster (Request Shorthand)

/-! ### Parts of credentials -/

namespace Credentials

/-- One of the two parts of credentials. -/
inductive Part where
  | username
  | password

/-- The key under which a part is given. -/
def Part.key : Part → String
  | .username => "username"
  | .password => "password"

/-- A part of some credentials, unless it is missing. -/
def Part.of? : Part → Credentials → Option String
  | .username, c => c.username
  | .password, c => c.password

lemma isEmpty_eq_false_iff {c : Credentials} :
    c.isEmpty = false ↔ ∃ part : Part, (part.of? c).isSome = true := by
  obtain ⟨u, p⟩ := c
  constructor
  · intro h
    cases u with
    | some u => exact ⟨.username, rfl⟩
    | none =>
      cases p with
      | some p => exact ⟨.password, rfl⟩
      | none => cases h
  · rintro ⟨(_ | _), h⟩
    · obtain ⟨u, rfl⟩ := Option.isSome_iff_exists.1 h
      rfl
    · obtain ⟨p, rfl⟩ := Option.isSome_iff_exists.1 h
      exact Bool.and_false _

end Credentials

/-- What an object gives under a key is there exactly if a string stands at the key. -/
lemma Properties.Gives.isSome_iff {m : Properties} {c : Credentials} (h : m.Gives c)
    (part : Credentials.Part) :
    (part.of? c).isSome = true ↔ ∃ s, m.get? part.key = some (.string s) := by
  have hpart : (m.get? part.key).getD .null = Json.ofString? (part.of? c) := by
    cases part with
    | username => exact h.username
    | password => exact h.password
  cases hvalue : part.of? c with
  | some s =>
    rw [hvalue] at hpart
    cases hget : m.get? part.key with
    | some v =>
      rw [hget] at hpart
      exact ⟨fun _ => ⟨s, congrArg some hpart⟩, fun _ => rfl⟩
    | none =>
      rw [hget] at hpart
      cases hpart
  | none =>
    rw [hvalue] at hpart
    refine ⟨fun hsome => Bool.noConfusion hsome, ?_⟩
    rintro ⟨s, hs⟩
    rw [hs] at hpart
    cases hpart

/-! ### Repositories -/

namespace Repository

/-- A repository has credentials with a part. -/
def HasPart (r : Repository) (part : Credentials.Part) : Prop :=
  ∃ c, r.credentials? = some c ∧ (part.of? c).isSome = true

/-- A repository has credentials with a header for basic authorization. -/
def Authorizes (r : Repository) : Prop :=
  ∃ c, r.credentials? = some c ∧ c.authHeader.isSome = true

/-- The row of a repository is marked as authenticated. -/
def Marked (r : Repository) : Prop :=
  (Row.ofRepository r).authenticated = true

variable {r : Repository}

lemma authorizes_iff : r.Authorizes ↔ r.HasPart .username := by
  simp only [Authorizes, HasPart, Credentials.authHeader_isSome]
  rfl

lemma marked_iff : r.Marked ↔ ∃ part, r.HasPart part := by
  have hmarked : r.Marked ↔ ∃ c, r.credentials? = some c ∧ c.isEmpty = false := by
    change (r.credentials?.any fun c => !c.isEmpty) = true ↔ _
    cases r.credentials? <;> simp
  simp only [hmarked, Credentials.isEmpty_eq_false_iff]
  constructor
  · rintro ⟨c, hc, part, hpart⟩
    exact ⟨part, c, hc, hpart⟩
  · rintro ⟨part, c, hc, hpart⟩
    exact ⟨c, hc, part, hpart⟩

lemma isSome_credentials? (r : Repository) : r.credentials?.isSome = r.kind.hasCredentials := by
  cases r <;> rfl

lemma not_hasPart (h : r.kind.hasCredentials = false) (part : Credentials.Part) :
    ¬ r.HasPart part := by
  rintro ⟨c, hc, -⟩
  rw [← isSome_credentials?, hc] at h
  cases h

end Repository

/-! ### Requests -/

/-- A property map gives a part of credentials. -/
def Properties.GivesPart (m : Properties) (part : Credentials.Part) : Prop :=
  ∃ fields s, m.get? "credentials" = some (.object fields) ∧
    (Properties.ofList fields).get? part.key = some (.string s)

/-- A request gives a part of credentials to the repository that it starts to build. -/
def Roster.Request.GivesPart (q : Request) (part : Credentials.Part) : Prop :=
  ∃ k m, q.plan? = some (k, m) ∧ k.hasCredentials = true ∧ m.GivesPart part

/-- Where nothing but the properties gives credentials, a repository has the parts that they
give. -/
lemma Equipped.hasPart_iff {m : Properties} {r : Repository} (h : Equipped m .empty r)
    (part : Credentials.Part) : r.HasPart part ↔ m.GivesPart part := by
  cases hm : m.get? "credentials" with
  | none =>
    constructor
    · rintro ⟨c, hc, hpart⟩
      rw [h.minted hm] at hc
      cases hc
      cases part <;> cases hpart
    · rintro ⟨fields, s, hfields, -⟩
      rw [hm] at hfields
      cases hfields
  | some v =>
    obtain ⟨fields, c, rfl, hc, hr⟩ := h.given v hm
    constructor
    · rintro ⟨c', hc', hpart⟩
      rw [hr] at hc'
      cases hc'
      obtain ⟨s, hs⟩ := (hc.isSome_iff part).1 hpart
      exact ⟨fields, s, hm, hs⟩
    · rintro ⟨fields', s, hfields', hs⟩
      rw [hm] at hfields'
      cases hfields'
      exact ⟨c, hr, (hc.isSome_iff part).2 ⟨s, hs⟩⟩

namespace Roster

variable {f : Factory} {s t : Roster} {entry : Json} {r : Repository}

lemma Request.hasPart_iff_of_result (hf : ∀ n, f.holder n = .empty) {q : Request}
    (hq : ∀ r, q ≠ .existing r) {used : Nat} (h : (q.result f used).1 = .ok r)
    (part : Credentials.Part) : r.HasPart part ↔ q.GivesPart part := by
  cases q with
  | build w m =>
    cases hw : w.kind.hasCredentials with
    | true =>
      have hequipped := Shorthand.equipped_of_build h hw
      rw [hf] at hequipped
      rw [hequipped.hasPart_iff]
      constructor
      · intro hm
        exact ⟨w.kind, m, rfl, hw, hm⟩
      · rintro ⟨k, m', hplan, -, hm⟩
        cases hplan
        exact hm
    | false =>
      have hkind := (Shorthand.kind_and_name_of_build h).1
      refine iff_of_false (Repository.not_hasPart (hkind ▸ hw) part) ?_
      rintro ⟨k, m', hplan, hk, -⟩
      cases hplan
      exact Bool.noConfusion (hw.symm.trans hk)
  | existing r => exact absurd rfl (hq r)
  | resolver name =>
    cases h
    refine iff_of_false (Repository.not_hasPart rfl part) ?_
    rintro ⟨k, m, hplan, -⟩
    cases hplan
  | refused e => cases h

/-- The factory of a file hands out empty credentials, so a repository has what its entry gives. -/
theorem hasPart_iff_of_declare (hf : ∀ n, f.holder n = .empty) (h : s.declare f entry = (.ok r, t))
    (part : Credentials.Part) : r.HasPart part ↔ (Request.ofEntry entry).GivesPart part := by
  have hrun : s.run f (.declare entry) = (.ok r, t) := h
  obtain ⟨built, hbuilt, hsettled, -⟩ := run_eq_ok hrun
  have hcredentials : r.credentials? = built.credentials? := by
    rw [hsettled.eq_withName, Repository.credentials?_withName]
  rw [Repository.HasPart, hcredentials]
  exact Request.hasPart_iff_of_result hf (Request.ofEntry_ne_existing entry) hbuilt part

end Roster

/-! ### Listings -/

/-- How an entry decides the mark of the repository that it declares. -/
structure MarkDecided (entry : Json) (r : Repository) : Prop where
  marked : r.Marked ↔ ∃ part, (Request.ofEntry entry).GivesPart part
  authorizes : r.Authorizes ↔ (Request.ofEntry entry).GivesPart .username
  agree : (r.Marked ↔ r.Authorizes) ↔
    ((Request.ofEntry entry).GivesPart .password → (Request.ofEntry entry).GivesPart .username)

lemma markDecided_of_declare {f : Factory} (hf : ∀ n, f.holder n = .empty) {s t : Roster}
    {entry : Json} {r : Repository} (h : s.declare f entry = (.ok r, t)) :
    MarkDecided entry r := by
  have hhas := Roster.hasPart_iff_of_declare hf h
  have hmarked : r.Marked ↔ ∃ part, (Request.ofEntry entry).GivesPart part := by
    simp only [Repository.marked_iff, hhas]
  have hauthorizes : r.Authorizes ↔ (Request.ofEntry entry).GivesPart .username := by
    rw [Repository.authorizes_iff, hhas]
  refine ⟨hmarked, hauthorizes, ?_⟩
  rw [hmarked, hauthorizes]
  constructor
  · intro h hpassword
    exact h.1 ⟨.password, hpassword⟩
  · intro h
    refine ⟨?_, fun husername => ⟨.username, husername⟩⟩
    rintro ⟨(_ | _), hpart⟩
    · exact hpart
    · exact h hpart

namespace Command

variable {h : Host} {file : Option Path} {rows : List Row}

/-- The marks in a listing. The repositories that are listed are those of the entries, one by one.
Such a repository has a header for basic authorization exactly if its entry gives a user name, and
is marked as authenticated exactly if its entry gives a user name or a password; so the mark tells
the truth unless the entry gives a password and no user name, and then it does not. -/
theorem marks_by_credentials (hrows : resolve h file = .ok rows) :
    ∃ f g s, loadFactory h file = .ok (f, g) ∧ Roster.DeclaresAll g {} f.repositories s ∧
      rows = s.declared.map Row.ofRepository ∧
      List.Forall₂ MarkDecided f.repositories s.declared := by
  obtain ⟨s, ⟨f, directory, l, hf, hall⟩, hs⟩ := resolve_eq_ok_iff.1 hrows
  obtain ⟨rs, hrs, hmarks⟩ := hall.forall₂ (markDecided_of_declare fun _ => rfl)
  rw [List.nil_append] at hrs
  exact ⟨f, _, s, loadFactory_of_begins hf, hall, hs, hrs ▸ hmarks⟩

/-! ### One part without the other -/

/-- An entry of a Maven repository that gives one part of its credentials. -/
def entryWithPart (part : Credentials.Part) : Json :=
  .object [("credentials", .object [(part.key, .string "x")]), ("url", .string "u")]

/-- A file with this entry. -/
def fileWithPart (part : Credentials.Part) : RepositoriesFile where
  repositories := [entryWithPart part]

/-- The Maven repository of this entry. -/
def repositoryWithPart (f : Factory) (part : Credentials.Part) : Repository :=
  .maven { (f.maven 0).1 with
    url := some "u"
    credentials := match part with
      | .username => ⟨some "x", none⟩
      | .password => ⟨none, some "x"⟩ }

lemma ascending_entryWithPart (part : Credentials.Part) :
    [("credentials", Json.object [(part.key, .string "x")]), ("url", .string "u")].Pairwise
      fun a b => a.1 < b.1 :=
  List.pairwise_pair.2 (show "credentials" < "url" by decide)

lemma begins_fileWithPart (part : Credentials.Part) :
    ∃ l, Begins (hostWithFile (fileWithPart part)) (some ⟨"r.yaml"⟩) (fileWithPart part)
      ⟨"/work/."⟩ l := by
  refine begins_hostWithFile fun v hv => ?_
  obtain rfl := List.mem_singleton.1 hv
  refine .object (ascending_entryWithPart part) (List.forall_mem_cons.2 ⟨?_, ?_⟩)
  · exact .object (List.pairwise_singleton _ _) (List.forall_mem_singleton.2 (.string _ _))
  · exact List.forall_mem_singleton.2 (.string _ _)

lemma ofEntry_entryWithPart (part : Credentials.Part) : Request.ofEntry (entryWithPart part) =
    .build .maven ⟨_, ascending_entryWithPart part⟩ := by
  have hm := Properties.ofList_entries ⟨_, ascending_entryWithPart part⟩
  rw [entryWithPart, Request.ofEntry, hm]
  simp only [Request.ofValue, hm]

lemma declares_fileWithPart (part : Credentials.Part) : ∃ f : Factory,
    loadFactory (hostWithFile (fileWithPart part)) (some ⟨"r.yaml"⟩) = .ok (fileWithPart part, f) ∧
    Declares (hostWithFile (fileWithPart part)) (some ⟨"r.yaml"⟩)
      { declared := [repositoryWithPart f part], used := 1 } := by
  have hdeclare : ∀ f : Factory, Roster.declare f (entryWithPart part) {} =
      (.ok (repositoryWithPart f part),
        { declared := [repositoryWithPart f part], used := 1 }) := by
    intro f
    rw [Roster.declare_eq, ofEntry_entryWithPart]
    cases part <;> rfl
  obtain ⟨l, hbegins⟩ := begins_fileWithPart part
  exact ⟨_, loadFactory_of_begins hbegins, _, _, l, hbegins, .cons (hdeclare _) (.nil _)⟩

/-- The user name alone makes a header, and the mark tells so. -/
theorem marks_by_credentials_username :
    let host := hostWithFile (fileWithPart .username)
    ∃ s r, Declares host (some ⟨"r.yaml"⟩) s ∧ s.declared = [r] ∧
      resolve host (some ⟨"r.yaml"⟩) = .ok [Row.ofRepository r] ∧ r.Marked ∧ r.Authorizes := by
  intro host
  obtain ⟨g, hload, hs⟩ := declares_fileWithPart .username
  have hrows := resolve_of_declares hs
  obtain ⟨f, g', s, hload', hall, hlisted, hmarks⟩ := marks_by_credentials hrows
  rw [hload] at hload'
  cases hload'
  obtain ⟨directory, l, hbegins, rfl⟩ := exists_begins hload
  obtain ⟨r, rest, hr, hrest, hdeclared⟩ := List.forall₂_cons_left_iff.1 hmarks
  obtain rfl := List.forall₂_nil_left_iff.1 hrest
  have husername : (Request.ofEntry (entryWithPart .username)).GivesPart .username := by
    rw [ofEntry_entryWithPart]
    exact ⟨_, _, rfl, rfl, _, _, rfl, rfl⟩
  rw [hlisted, hdeclared] at hrows
  exact ⟨s, r, ⟨_, _, _, hbegins, hall⟩, hdeclared, hrows, hr.marked.2 ⟨_, husername⟩,
    hr.authorizes.2 husername⟩

/-- A repository with a password alone is marked, but has no header. -/
theorem marked_by_password :
    let host := hostWithFile (fileWithPart .password)
    ∃ s r, Declares host (some ⟨"r.yaml"⟩) s ∧ s.declared = [r] ∧
      resolve host (some ⟨"r.yaml"⟩) = .ok [Row.ofRepository r] ∧ r.Marked ∧ ¬ r.Authorizes := by
  intro host
  obtain ⟨g, -, hs⟩ := declares_fileWithPart .password
  refine ⟨_, _, hs, rfl, resolve_of_declares hs, rfl, ?_⟩
  rintro ⟨c, hc, hheader⟩
  cases hc
  cases hheader

end Command

end Depot
