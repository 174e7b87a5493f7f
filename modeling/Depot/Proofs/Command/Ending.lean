import Depot.Proofs.Command.Loading
import Depot.Proofs.FileSystem.Long
import Mathlib

/-!
# How a run ends

A run whose arguments are understood ends at the first thing that fails, and the exit code tells
what that was: reading the file, finding its directory, understanding it, the environment, or an
entry or the local repository. A run that fails has printed nothing, and reports the failure in its
own words, unless it panics (`Ends`).
-/

namespace Depot

namespace Command

variable {h : Host} {args : List String} {file : Option Path} {o : Options} {e : Failure}

/-! ### Reports -/

/-- A run that does nothing but report a failure, in the words of the failure. -/
structure Reports (e : Failure) (out : Outcome) : Prop where
  outcome : out = .ofFailure e
  output : out.output = ""
  message : (Fault.ofFailure e).message = e.message
  errors : ∃ help, out.errors = "Error: " ++ e.message ++ "\n" ++ help

lemma reports_ofFailure (e : Failure) : Reports e (.ofFailure e) where
  outcome := rfl
  output := rfl
  message := Fault.message_ofFailure e
  errors := by
    rw [← Fault.message_ofFailure e]
    exact ⟨_, rfl⟩

/-- The outcome of a run that answers its request, or comes to an early end. -/
def Outcome.ofAnswer : Except Halt String → Outcome
  | .ok output => { output }
  | .error e => .ofHalt e

lemma run_of_request {r : Request} (hargs : Request.ofArguments args = .ok r) :
    run h args = .ofAnswer (answer h r) := by
  rw [run, hargs]
  rfl

/-! ### Exit codes -/

lemma exitCode_ofHalt_ne_zero (e : Halt) : (Outcome.ofHalt e).exitCode ≠ 0 := by
  cases e with
  | panic p => exact Nat.succ_ne_zero _
  | failure e => cases e <;> exact Nat.succ_ne_zero _

lemma output_ofHalt (e : Halt) : (Outcome.ofHalt e).output = "" := by
  cases e <;> rfl

lemma exitCode_of_declined (he : e.Declined) : (Outcome.ofHalt (.failure e)).exitCode = 2 := by
  cases he <;> rfl

lemma exitCode_of_rejected (he : Rejected h file e) :
    (Outcome.ofHalt (.failure e)).exitCode = 2 := by
  obtain ⟨p, text, -, -, hyaml⟩ := he
  obtain ⟨message, rfl⟩ := RepositoriesFile.ofYaml_eq_error hyaml
  rfl

/-! ### A file and what is done with it -/

section Answer

variable {later : Failure → Prop} {done : String → Prop} {x : Except Halt String} {e : Halt}

/-- Why a run on a file comes to an early end, where more may fail after the file was loaded. -/
inductive Halts (h : Host) (file : Option Path) (later : Failure → Prop) : Halt → Prop
  | loading {e : Failure} (he : LoadFails h file e) : Halts h file later (.failure e)
  | panic {v : Variable} (hv : Panics h file v) : Halts h file later (.panic (.notUnicode v))
  | later {e : Failure} (he : later e) : Halts h file later (.failure e)

/-- An answer that comes to an early end or is done. -/
structure Answers (h : Host) (file : Option Path) (later : Failure → Prop) (done : String → Prop)
    (x : Except Halt String) : Prop where
  halts : ∀ e, Halts h file later e → x = .error e
  succeeds : ∀ output, done output → x = .ok output
  total : (∃ e, Halts h file later e) ∨ ∃ output, done output
  later_cases : ∀ e, later e → e.Declined ∨ ∃ message, e = .localRepositoryUnavailable message

/-- How a run on a file ends, where more may fail after the file was loaded: with 5 for a file that
cannot be read or whose directory is not known, with 2 for what was written, with 3 for the local
repository, with 101 for a variable that is not Unicode, and else with 0. -/
structure Ends (h : Host) (file : Option Path) (later : Failure → Prop) (done : String → Prop)
    (out : Outcome) : Prop where
  unreadable : out.exitCode = 5 ↔ (∃ e, Unreadable h file e) ∨ ∃ e, Adrift h file e
  declined : out.exitCode = 2 ↔ (∃ e, Rejected h file e) ∨ ∃ e, later e ∧ e.Declined
  unavailable : out.exitCode = 3 ↔ ∃ message, later (.localRepositoryUnavailable message)
  panicked : out.exitCode = 101 ↔ ∃ v, Panics h file v
  success : out.exitCode = 0 ↔ ∃ output, done output
  codes : out.exitCode ∈ [0, 2, 3, 5, 101]
  prints : ∀ output, done output → out = { output }
  silent : out.exitCode ≠ 0 → out.output = ""
  reports : out.exitCode ≠ 0 → out.exitCode ≠ 101 →
    ∃ e, (LoadFails h file e ∨ later e) ∧ Reports e out

/-- An early end with its exit code. -/
inductive HaltsWith (h : Host) (file : Option Path) (later : Failure → Prop) : Nat → Prop
  | unreadable (he : (∃ e, Unreadable h file e) ∨ ∃ e, Adrift h file e) : HaltsWith h file later 5
  | declined (he : (∃ e, Rejected h file e) ∨ ∃ e, later e ∧ e.Declined) : HaltsWith h file later 2
  | unavailable (he : ∃ message, later (.localRepositoryUnavailable message)) :
      HaltsWith h file later 3
  | panicked (hv : ∃ v, Panics h file v) : HaltsWith h file later 101

namespace Answers

lemma haltsWith (hx : Answers h file later done x) (he : Halts h file later e) :
    HaltsWith h file later (Outcome.ofHalt e).exitCode := by
  cases he with
  | loading he =>
    cases he with
    | unreadable he => exact .unreadable (.inl ⟨_, he⟩)
    | adrift he => exact .unreadable (.inr ⟨_, he⟩)
    | rejected he =>
      rw [exitCode_of_rejected he]
      exact .declined (.inl ⟨_, he⟩)
  | panic hv => exact .panicked ⟨_, hv⟩
  | later he =>
    rcases hx.later_cases _ he with hdeclined | ⟨message, rfl⟩
    · rw [exitCode_of_declined hdeclined]
      exact .declined (.inr ⟨_, he, hdeclined⟩)
    · exact .unavailable ⟨message, he⟩

lemma haltsWith_iff (hx : Answers h file later done x) {n : Nat} (hn : n ≠ 0) :
    (Outcome.ofAnswer x).exitCode = n ↔ HaltsWith h file later n := by
  have hhalted : ∀ e, Halts h file later e →
      (Outcome.ofAnswer x).exitCode = (Outcome.ofHalt e).exitCode := by
    intro e he
    rw [hx.halts e he]
    rfl
  constructor
  · -- Nothing that is done ends with another code than 0, so there was an early end.
    rintro rfl
    rcases hx.total with ⟨e, he⟩ | ⟨output, hout⟩
    · rw [hhalted e he]
      exact hx.haltsWith he
    · rw [hx.succeeds output hout] at hn
      exact absurd rfl hn
  · intro hhalts
    cases hhalts with
    | unreadable he =>
      rcases he with ⟨e, he⟩ | ⟨e, he⟩
      · exact hhalted _ (.loading (.unreadable he))
      · exact hhalted _ (.loading (.adrift he))
    | declined he =>
      rcases he with ⟨e, he⟩ | ⟨e, he, hdeclined⟩
      · rw [hhalted _ (.loading (.rejected he)), exitCode_of_rejected he]
      · rw [hhalted _ (.later he), exitCode_of_declined hdeclined]
    | unavailable he =>
      obtain ⟨message, he⟩ := he
      exact hhalted _ (.later he)
    | panicked hv =>
      obtain ⟨v, hv⟩ := hv
      exact hhalted _ (.panic hv)

theorem ends (hx : Answers h file later done x) : Ends h file later done (.ofAnswer x) where
  unreadable := by
    rw [hx.haltsWith_iff (by decide)]
    exact ⟨fun hhalts => by cases hhalts; assumption, .unreadable⟩
  declined := by
    rw [hx.haltsWith_iff (by decide)]
    exact ⟨fun hhalts => by cases hhalts; assumption, .declined⟩
  unavailable := by
    rw [hx.haltsWith_iff (by decide)]
    exact ⟨fun hhalts => by cases hhalts; assumption, .unavailable⟩
  panicked := by
    rw [hx.haltsWith_iff (by decide)]
    exact ⟨fun hhalts => by cases hhalts; assumption, .panicked⟩
  success := by
    constructor
    · intro hcode
      rcases hx.total with ⟨e, he⟩ | hout
      · rw [hx.halts e he] at hcode
        exact absurd hcode (exitCode_ofHalt_ne_zero e)
      · exact hout
    · rintro ⟨output, hout⟩
      rw [hx.succeeds output hout]
      rfl
  codes := by
    rcases hx.total with ⟨e, he⟩ | ⟨output, hout⟩
    · have hhalts := hx.haltsWith he
      rw [hx.halts e he, Outcome.ofAnswer]
      generalize (Outcome.ofHalt e).exitCode = n at hhalts
      cases hhalts <;> decide
    · rw [hx.succeeds output hout]
      exact List.mem_cons_self
  prints output hout := by
    rw [hx.succeeds output hout]
    rfl
  silent hcode := by
    rcases hx.total with ⟨e, he⟩ | ⟨output, hout⟩
    · rw [hx.halts e he]
      exact output_ofHalt e
    · rw [hx.succeeds output hout] at hcode
      exact absurd rfl hcode
  reports hcode hpanic := by
    rcases hx.total with ⟨e, he⟩ | ⟨output, hout⟩
    · rw [hx.halts e he] at hpanic ⊢
      cases he with
      | loading he => exact ⟨_, .inl he, reports_ofFailure _⟩
      | panic hv => exact absurd rfl hpanic
      | later he => exact ⟨_, .inr he, reports_ofFailure _⟩
    · rw [hx.succeeds output hout] at hcode
      exact absurd rfl hcode

end Answers

end Answer

/-! ### The two commands -/

/-- What a run prints that declares all entries. -/
def Lists (h : Host) (o : Options) (output : String) : Prop :=
  ∃ s, Declares h o.file s ∧
    output = listing o.json (s.declared.map Row.ofRepository) ++ "\n"

/-- A run that locates the local repository fails as its locator does. -/
def LocalFails (h : Host) (file : Option Path) (e : Failure) : Prop :=
  ∃ e', LocateFails h file e' ∧ e = .localRepositoryUnavailable e'.message

/-- What a run prints that locates the local repository. -/
def Shows (h : Host) (file : Option Path) (output : String) : Prop :=
  ∃ url, Locates h file url ∧ output = url ++ "\n"

lemma answers_resolve (hhome : h.home?.isSome = true) (o : Options) :
    Answers h o.file (EntryFails h o.file) (Lists h o) (answer h (.resolve o)) where
  halts e he := by
    rw [answer, map_eq_error]
    cases he with
    | loading he => exact resolve_of_halt (loadFactory_of_fails he)
    | panic hv => exact resolve_of_halt (loadFactory_of_panics hv)
    | later he => exact resolve_of_entryFails he
  succeeds output hout := by
    obtain ⟨s, hs, rfl⟩ := hout
    exact map_eq_ok.2 ⟨_, resolve_of_declares hs, rfl⟩
  total := by
    obtain ⟨p, hp⟩ := exists_repositoriesPath hhome o.file
    rcases begins_or_halts hp with ⟨f, directory, l, hf⟩ | ⟨e, he⟩ | ⟨v, hv⟩
    · rcases declares_or_fails hf with ⟨s, hs⟩ | ⟨e, he⟩
      · exact .inr ⟨_, s, hs, rfl⟩
      · exact .inl ⟨_, .later he⟩
    · exact .inl ⟨_, .loading he⟩
    · exact .inl ⟨_, .panic hv⟩
  later_cases e he := by
    obtain ⟨f, directory, l, -, before, entry, after, t, -, -, hentry⟩ := he
    exact Roster.declined_or_unavailable hentry

lemma answers_local (hhome : h.home?.isSome = true)
    (hcwd : h.workingDirectory.IsAbsolute) (o : Options) :
    Answers h o.file (LocalFails h o.file) (Shows h o.file) (answer h (.localRepository o)) where
  halts e he := by
    rw [answer, map_eq_error]
    cases he with
    | loading he => exact localUrl_of_halt (loadFactory_of_fails he)
    | panic hv => exact localUrl_of_halt (loadFactory_of_panics hv)
    | later he =>
      obtain ⟨e', hlocal, rfl⟩ := he
      exact localUrl_of_locateFails hlocal
  succeeds output hout := by
    obtain ⟨url, hurl, rfl⟩ := hout
    exact map_eq_ok.2 ⟨_, localUrl_of_locates hcwd hurl, rfl⟩
  total := by
    obtain ⟨p, hp⟩ := exists_repositoriesPath hhome o.file
    rcases begins_or_halts hp with ⟨f, directory, l, hf⟩ | ⟨e, he⟩ | ⟨v, hv⟩
    · rcases locates_or_fails hf with ⟨url, hurl⟩ | ⟨e, he⟩
      · exact .inr ⟨_, url, hurl, rfl⟩
      · exact .inl ⟨_, .later ⟨e, he, rfl⟩⟩
    · exact .inl ⟨_, .loading he⟩
    · exact .inl ⟨_, .panic hv⟩
  later_cases e he := by
    obtain ⟨e', -, rfl⟩ := he
    exact .inr ⟨e'.message, rfl⟩

lemma exists_localFails_iff :
    (∃ message, LocalFails h file (.localRepositoryUnavailable message)) ↔
      ∃ e, LocateFails h file e := by
  constructor
  · rintro ⟨message, e, he, -⟩
    exact ⟨e, he⟩
  · rintro ⟨e, he⟩
    exact ⟨e.message, e, he, rfl⟩

lemma LocalFails.not_declined (he : LocalFails h file e) : ¬ e.Declined := by
  obtain ⟨e', -, rfl⟩ := he
  nofun

/-- A run on a file ends at the first thing that fails, with its exit code and without any output,
and unless it panics, it reports the failure in its own words. Listing repositories may fail at an
entry. Showing the local one may fail at its locator, and the entries of the file make no difference
to it. -/
theorem ends_by_first_failure (h : Host) (hhome : h.home?.isSome = true) (args : List String) :
    (∀ o, Request.ofArguments args = .ok (.resolve o) →
      Ends h o.file (EntryFails h o.file) (Lists h o) (run h args)) ∧
    ∀ o, Request.ofArguments args = .ok (.localRepository o) → h.workingDirectory.IsAbsolute →
      Ends h o.file (LocalFails h o.file) (Shows h o.file) (run h args) ∧
      ((run h args).exitCode = 2 ↔ ∃ e, Rejected h o.file e) ∧
      ((run h args).exitCode = 3 ↔ ∃ e, LocateFails h o.file e) ∧
      ∀ (files : FileSystem) (entries : List Json) p f,
        (∀ l, Locator.ofHost h = .ok l → ∀ q ∈ l.settingsFiles,
          h.holds q = Host.holds { h with files } q ∧
            h.readText q = Host.readText { h with files } q) →
        Loads h o.file p f → Loads { h with files } o.file p { f with repositories := entries } →
        run { h with files } args = run h args := by
  refine ⟨fun o hargs => ?_, fun o hargs hcwd => ?_⟩
  · rw [run_of_request hargs]
    exact (answers_resolve hhome o).ends
  · have hends : Ends h o.file (LocalFails h o.file) (Shows h o.file) (run h args) := by
      rw [run_of_request hargs]
      exact (answers_local hhome hcwd o).ends
    refine ⟨hends, ?_, ?_, ?_⟩
    · rw [hends.declined, or_iff_left]
      rintro ⟨e, he, hdeclined⟩
      exact he.not_declined hdeclined
    · rw [hends.unavailable, exists_localFails_iff]
    · intro files entries p f hsettings hf hf'
      rw [run_of_request hargs, run_of_request hargs, answer, answer,
        localUrl_congr hsettings hf hf']

/-- A host with a file whose second entry is null. The home directory is that of the account. -/
def hostWithNull : Host where
  files := FileSystem.empty.addFile (FileSystem.positionOf ⟨"/work/r.yaml"⟩)
    "repositories: [a, ~]".toUTF8
  workingDirectory := .standing ⟨"/work"⟩
  environment := []
  accountHome := some ⟨"/home"⟩

lemma begins_hostWithNull : ∃ l, Begins hostWithNull (some ⟨"r.yaml"⟩)
    { repositories := [.string "a", .null] } ⟨"/work/."⟩ l ∧
      l.locate hostWithNull = .ok ⟨"/home/.m2/repository"⟩ :=
  ⟨_, ⟨⟨_, .read (.named _) rfl (by cbv), by decide⟩,
    RepositoriesFile.locator_eq_ok_iff.2 ⟨by decide, rfl⟩⟩, rfl⟩

/-- Nothing is listed, though the first entry was declared; the local repository is shown all the
same. -/
theorem ends_by_null_entry :
    hostWithNull.home?.isSome = true ∧ hostWithNull.workingDirectory.IsAbsolute ∧
    (run hostWithNull ["resolve", "-f", "r.yaml"]).exitCode = 2 ∧
    (run hostWithNull ["resolve", "-f", "r.yaml"]).output = "" ∧
    run hostWithNull ["local", "-f", "r.yaml"] =
      { output := "file:///home/.m2/repository/\n" } := by
  obtain ⟨l, hbegins, hlocate⟩ := begins_hostWithNull
  have hcwd : hostWithNull.workingDirectory.IsAbsolute :=
    WorkingDirectory.isAbsolute_standing rfl
  have hresolve := (ends_by_first_failure hostWithNull rfl ["resolve", "-f", "r.yaml"]).1
    { file := some ⟨"r.yaml"⟩ } (by cbv)
  have hlocal := (ends_by_first_failure hostWithNull rfl ["local", "-f", "r.yaml"]).2
    { file := some ⟨"r.yaml"⟩ } (by cbv) hcwd
  have hentry : EntryFails hostWithNull (some ⟨"r.yaml"⟩) (.unsupportedDescriptor "null") :=
    ⟨_, _, l, hbegins, [.string "a"], .null, [], _, rfl, .cons rfl (.nil _), rfl⟩
  have hcode : (run hostWithNull ["resolve", "-f", "r.yaml"]).exitCode = 2 :=
    hresolve.declined.2 (.inr ⟨_, hentry, .unsupportedDescriptor _⟩)
  have hshows : Shows hostWithNull (some ⟨"r.yaml"⟩) "file:///home/.m2/repository/\n" :=
    ⟨_, ⟨_, _, l, _, hbegins, hlocate, rfl⟩, by decide⟩
  exact ⟨rfl, hcwd, hcode, hresolve.silent (by rw [hcode]; decide), hlocal.1.prints _ hshows⟩

/-! ### Files that are there -/

/-- A host with a home directory, and a default file below one. -/
def hostWithHome (home : Path) : Host where
  files := FileSystem.empty.addFile
    (FileSystem.positionOf ⟨"/home/.config/quarry/repositories.yaml"⟩) "repositories: [a]".toUTF8
  workingDirectory := .standing ⟨"/work"⟩
  environment := [⟨"HOME", home.text, true⟩]

/-- A host whose working directory was removed, with a file beside it. -/
def hostWithoutDirectory : Host where
  files := FileSystem.empty.addFile (FileSystem.positionOf ⟨"/work/r.yaml"⟩) "".toUTF8
  workingDirectory := .removed (.standing ⟨"/work"⟩)
  environment := [⟨"HOME", "/home", true⟩]

/-- A host with a variable that is not Unicode. -/
def hostWithGarbledVariable : Host where
  files := FileSystem.empty.addFile (FileSystem.positionOf ⟨"/work/r.yaml"⟩) "".toUTF8
  workingDirectory := .standing ⟨"/work"⟩
  environment := [⟨"HOME", "/home", true⟩, ⟨"FOO", "\uFFFD", false⟩]

lemma home?_hostWithHome {home : Path} (hhome : home.Equiv ⟨"/home"⟩) :
    (hostWithHome home).home? = some home := by
  have hne : home.text ≠ "" := Path.text_ne_empty hhome.isAbsolute_eq
  have hvalue : (hostWithHome home).valueOf? "HOME" = some home.text := rfl
  rw [Host.home?, hvalue]
  split
  · contradiction
  · rename_i heq
    exact absurd (Option.some.inj heq) hne
  · rename_i heq
    rw [← Option.some.inj heq]

/-- The default file is below the home directory. If the path of that is too long to be followed,
so is the path of the file. -/
lemma exists_defaultPath_hostWithHome {home : Path} (hhome : home.Equiv ⟨"/home"⟩)
    (hnul : '\x00' ∉ home.text.toList) (hlen : FileSystem.pathLimit < home.text.utf8ByteSize) :
    ∃ p, RepositoriesFile.defaultPath (hostWithHome home) = .ok p ∧
      p.Equiv ⟨"/home/.config/quarry/repositories.yaml"⟩ ∧
      ∀ wd, (hostWithHome home).files.find wd p = .error .nameTooLong := by
  have hconfig : (hostWithHome home).configDirectory? = some (home.join ⟨".config"⟩) := by
    rw [Host.configDirectory?, home?_hostWithHome hhome]
    rfl
  refine ⟨_, by rw [RepositoriesFile.defaultPath, hconfig],
    ((hhome.join ⟨".config"⟩).join ⟨"quarry"⟩).join ⟨"repositories.yaml"⟩, fun wd => ?_⟩
  refine FileSystem.find_of_long (Path.nul_notMem_join (Path.nul_notMem_join
    (Path.nul_notMem_join hnul (by decide)) (by decide)) (by decide)) ?_
  calc FileSystem.pathLimit
    _ < home.text.utf8ByteSize := hlen
    _ ≤ (home.join ⟨".config"⟩).text.utf8ByteSize := Path.utf8ByteSize_le_join_left _ (by decide)
    _ ≤ _ := Path.utf8ByteSize_le_join_left _ (by decide)
    _ ≤ _ := Path.utf8ByteSize_le_join_left _ (by decide)

/-- Nothing is listed, though the file has an entry: a path that cannot be followed leads to nothing
that could be loaded. -/
lemma run_hostWithHome {home : Path} (hhome : home.Equiv ⟨"/home"⟩)
    (hnul : '\x00' ∉ home.text.toList) (hlen : FileSystem.pathLimit < home.text.utf8ByteSize) :
    (hostWithHome home).home?.isSome = true ∧
    ∃ p, RepositoriesFile.defaultPath (hostWithHome home) = .ok p ∧
      p.Equiv ⟨"/home/.config/quarry/repositories.yaml"⟩ ∧
      (hostWithHome home).readText ⟨"/home/.config/quarry/repositories.yaml"⟩ =
        .ok "repositories: [a]" ∧
      (hostWithHome home).readText p = .error .nameTooLong ∧
      run (hostWithHome home) ["resolve"] = { output := noRepositories ++ "\n" } := by
  obtain ⟨p, hp, hequiv, hfind⟩ := exists_defaultPath_hostWithHome hhome hnul hlen
  have hholds : (hostWithHome home).holds p = false := by
    rw [Host.holds, FileSystem.holds, hfind]
  have htext : (hostWithHome home).readText p = .error .nameTooLong := by
    rw [Host.readText, FileSystem.readText, hfind]
  have habsolute : p.isAbsolute = true := hequiv.isAbsolute_eq
  have hbegins : Begins (hostWithHome home) none {} (parentOf p) _ :=
    ⟨⟨p, .missing hp hholds, directoryOf_of_isAbsolute habsolute
      (RepositoriesFile.ofPieces_defaultPath_ne_nil hp)⟩,
      RepositoriesFile.locator_eq_ok_iff.2 ⟨by simp [Host.Legible, hostWithHome], rfl⟩⟩
  have hargs : Request.ofArguments ["resolve"] = .ok (.resolve {}) := by cbv
  refine ⟨by rw [home?_hostWithHome hhome]; rfl, p, hp, hequiv, rfl, htext, ?_⟩
  rw [run_of_request hargs, answer, resolve_of_declares ⟨_, _, _, hbegins, .nil _⟩]
  rfl

/-- The exit code does not tell alone whether a file can be read: a default file is taken as missing
if its path cannot be followed, and a file that can be read is of no use without its directory or
with a variable that is not Unicode. -/
theorem exitCode_of_unusual_hosts :
    (let h := hostWithHome (Path.join ⟨"/"⟩ (Path.detour 2100 ⟨"home"⟩));
      h.home?.isSome = true ∧ ∃ p, RepositoriesFile.defaultPath h = .ok p ∧
        p.Equiv ⟨"/home/.config/quarry/repositories.yaml"⟩ ∧
        h.readText ⟨"/home/.config/quarry/repositories.yaml"⟩ = .ok "repositories: [a]" ∧
        h.readText p = .error .nameTooLong ∧
        run h ["resolve"] = { output := noRepositories ++ "\n" }) ∧
    (hostWithoutDirectory.home?.isSome = true ∧
      hostWithoutDirectory.readText ⟨"../r.yaml"⟩ = .ok "" ∧
      (run hostWithoutDirectory ["resolve", "-f", "../r.yaml"]).exitCode = 5) ∧
    hostWithGarbledVariable.home?.isSome = true ∧
      hostWithGarbledVariable.readText ⟨"r.yaml"⟩ = .ok "" ∧
      (run hostWithGarbledVariable ["resolve", "-f", "r.yaml"]).exitCode = 101 := by
  refine ⟨?_, ?_, rfl, rfl, ?_⟩
  · have hequiv := Path.equiv_join_detour (p := ⟨"/"⟩) (q := ⟨"home"⟩) (by decide) (by decide) 2100
    have hnul := Path.nul_notMem_join (p := ⟨"/"⟩) (by decide)
      (Path.nul_notMem_detour (p := ⟨"home"⟩) (by decide) 2100)
    have hlen := Path.utf8ByteSize_le_join ⟨"/"⟩ (Path.detour 2100 ⟨"home"⟩)
    rw [Path.utf8ByteSize_detour] at hlen
    generalize Path.join ⟨"/"⟩ (Path.detour 2100 ⟨"home"⟩) = home at hequiv hnul hlen ⊢
    exact run_hostWithHome hequiv hnul (Nat.lt_of_lt_of_le (by decide) hlen)
  · have hargs : Request.ofArguments ["resolve", "-f", "../r.yaml"] =
        .ok (.resolve { file := some ⟨"../r.yaml"⟩ }) := by cbv
    have hfile : Loads hostWithoutDirectory (some ⟨"../r.yaml"⟩) ⟨"../r.yaml"⟩ {} :=
      .read (.named _) rfl rfl
    have hfails := loadFactory_of_fails (.adrift ⟨_, _, hfile, rfl, rfl⟩)
    rw [run_of_request hargs, answer, resolve_of_halt hfails]
    exact ⟨rfl, rfl, rfl⟩
  · have hargs : Request.ofArguments ["resolve", "-f", "r.yaml"] =
        .ok (.resolve { file := some ⟨"r.yaml"⟩ }) := by cbv
    have hfile : Loads hostWithGarbledVariable (some ⟨"r.yaml"⟩) ⟨"r.yaml"⟩ {} :=
      .read (.named _) rfl rfl
    have hgarbled : hostWithGarbledVariable.Garbled ⟨"FOO", "\uFFFD", false⟩ :=
      ⟨[⟨"HOME", "/home", true⟩], [], rfl, rfl, by decide⟩
    have hpanics := loadFactory_of_panics ⟨_, _, _, hfile, rfl, hgarbled⟩
    rw [run_of_request hargs, answer, resolve_of_halt hpanics]
    rfl

end Command

end Depot
