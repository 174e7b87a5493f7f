import Depot.Command.Run
import Depot.Proofs.Redaction.Roster

/-!
# What is shown of passwords

Nothing that is shown of a roster tells a password (`Roster.shown_redact`). Declarations that differ
in passwords only end alike up to redaction, so they show the same.
-/

namespace Depot

/-! ### What is shown -/

/-- All that is shown of a roster. -/
structure Shown where
  names : List String
  rows : List Row
  table : String
  json : String
  credentials : List (Option String)
  deriving DecidableEq, Repr

/-- What is shown of a roster: the names and rows, the table of the rows, their listing as JSON, and
the text for diagnosis of all credentials. -/
def Roster.shown (s : Roster) : Shown :=
  let rows := s.declared.map Row.ofRepository
  { names := s.names
    rows
    table := table rows
    json := Command.listing true rows
    credentials := s.declared.map fun r => r.credentials?.map Credentials.debug }

/-- What a run over entries shows, or the code that it ends with. -/
def Roster.showRun : Except Failure Unit × Roster → Except Nat Shown
  | (.ok (), s) => .ok s.shown
  | (.error e, _) => .error e.exitCode

/-- The exit code of a run that comes to an early end. -/
def Command.Halt.exitCode : Halt → Nat
  | .failure e => e.exitCode
  | .panic _ => panicExitCode

/-! ### Redaction does not show -/

namespace Credentials

@[simp] lemma debug_redact (c : Credentials) : c.redact.debug = c.debug := by
  obtain ⟨u, p⟩ := c
  cases p <;> rfl

@[simp] lemma isEmpty_redact (c : Credentials) : c.redact.isEmpty = c.isEmpty := by
  simp [isEmpty, redact]

end Credentials

lemma Repository.credentials?_redact (r : Repository) :
    r.redact.credentials? = r.credentials?.map Credentials.redact := by
  cases r <;> rfl

lemma Row.locationOf_redact (r : Repository) : locationOf r.redact = locationOf r := by
  cases r <;> rfl

lemma Row.ofRepository_redact (r : Repository) : ofRepository r.redact = ofRepository r := by
  simp [ofRepository, locationOf_redact, Repository.credentials?_redact, Option.any_map]

namespace Roster

theorem shown_redact (s : Roster) : s.redact.shown = s.shown := by
  have hrows : s.redact.declared.map Row.ofRepository = s.declared.map Row.ofRepository := by
    simp [redact, Row.ofRepository_redact]
  have hcredentials : (s.redact.declared.map fun r => r.credentials?.map Credentials.debug) =
      s.declared.map fun r => r.credentials?.map Credentials.debug := by
    simp [redact, Repository.credentials?_redact, Function.comp_def]
  rw [shown, shown, hrows, hcredentials, names_redact]

lemma RunAlike.showRun_eq {o o' : Except Failure Unit × Roster} (h : RunAlike o o') :
    showRun o = showRun o' := by
  cases h with
  | ok s => rw [showRun, showRun, shown_redact]
  | error h => rw [showRun, showRun, h]

end Roster

/-! ### Repositories files -/

namespace RepositoriesFile

open Command (answer loadFactory)

/-- A repositories file with every password hidden. -/
def redact (f : RepositoriesFile) : RepositoriesFile :=
  { f with repositories := f.repositories.map Json.redact }

/-- What the entries of a file show on a host, for a file in some directory, or the code that the
run ends with. -/
def showIn (f : RepositoriesFile) (h : Host) (directory : Path) : Except Nat Shown :=
  match f.factory h directory with
  | .ok factory => Roster.showRun (f.declareAll factory {})
  | .error p => .error (Command.Halt.panic p).exitCode

lemma showRun_redact (f : RepositoriesFile) (factory : Factory) (s : Roster) :
    Roster.showRun (f.declareAll factory s) =
      Roster.showRun (f.redact.declareAll factory.redact s.redact) :=
  (Roster.declareAll_redacts factory f.repositories s).showRun_eq

lemma factory_eq_of_redact_eq {f g : RepositoriesFile} (h : f.redact = g.redact) (host : Host)
    (directory : Path) : f.factory host directory = g.factory host directory := by
  have hfactory : f.redact.factory host directory = g.redact.factory host directory := by rw [h]
  exact hfactory

/-- A run of the command that lists repositories prints the listing of the rows that are shown. -/
lemma answer_resolve {h : Host} {o : Command.Options} {f : RepositoriesFile} {factory : Factory}
    (hload : loadFactory h o.file = .ok (f, factory)) :
    (answer h (.resolve o)).mapError Command.Halt.exitCode =
      (Roster.showRun (f.declareAll factory {})).map
        fun shown => Command.listing o.json shown.rows ++ "\n" := by
  rw [answer, Command.resolve, hload]
  simp only [bind, Except.bind]
  obtain ⟨(e | u), s⟩ := f.declareAll factory {}
  · rfl
  · rfl

/-- Passwords do not influence what is shown. Files that are the same but for passwords show the
same or fail with the same exit code, on every host and with every factory, and so do the runs of
the command that lists them, in either form. Credentials with a password read the same for every
password. -/
theorem shows_no_password {f g : RepositoriesFile} (hfg : f.redact = g.redact) :
    (∀ (h : Host) (directory : Path), f.showIn h directory = g.showIn h directory) ∧
    (∀ (factory : Factory) (s : Roster),
      Roster.showRun (f.declareAll factory s) = Roster.showRun (g.declareAll factory s)) ∧
    (∀ (h h' : Host) (o o' : Command.Options) (factory : Factory), o.json = o'.json →
      loadFactory h o.file = .ok (f, factory) → loadFactory h' o'.file = .ok (g, factory) →
        (answer h (.resolve o)).mapError Command.Halt.exitCode =
          (answer h' (.resolve o')).mapError Command.Halt.exitCode) ∧
    ∀ c d : Credentials, c.username = d.username → c.password.isSome → d.password.isSome →
      c.debug = d.debug := by
  have hrun : ∀ (factory : Factory) (s : Roster),
      Roster.showRun (f.declareAll factory s) = Roster.showRun (g.declareAll factory s) := by
    intro factory s
    rw [showRun_redact f, showRun_redact g, hfg]
  refine ⟨?_, hrun, ?_, ?_⟩
  · intro h directory
    rw [showIn, showIn, factory_eq_of_redact_eq hfg]
    cases g.factory h directory with
    | ok factory => exact hrun factory {}
    | error p => rfl
  · intro h h' o o' factory hjson hf hg
    rw [answer_resolve hf, answer_resolve hg, hrun, hjson]
  · intro c d hname hc hd
    have hredact : c.redact = d.redact := by
      obtain ⟨p, hp⟩ := Option.isSome_iff_exists.1 hc
      obtain ⟨q, hq⟩ := Option.isSome_iff_exists.1 hd
      rw [Credentials.redact, Credentials.redact, hname, hp, hq]
      rfl
    rw [← c.debug_redact, ← d.debug_redact, hredact]

/-- A file with one Maven repository that has a password. -/
def withPassword (password : String) : RepositoriesFile where
  repositories :=
    [.object [("url", .string "https://repo.example.org"),
      ("credentials", .object [("username", .string "user"), ("password", .string password)])]]

theorem shows_neither_of_two_passwords :
    withPassword "one" ≠ withPassword "two" ∧
      (withPassword "one").redact = (withPassword "two").redact ∧
      (withPassword "one").showIn default ⟨"/"⟩ = (withPassword "two").showIn default ⟨"/"⟩ ∧
      ((withPassword "two").showIn default ⟨"/"⟩).map Shown.rows =
        .ok [⟨"maven", .maven, "https://repo.example.org", true⟩] :=
  ⟨by decide, rfl, (shows_no_password rfl).1 default ⟨"/"⟩, rfl⟩

end RepositoriesFile

end Depot
