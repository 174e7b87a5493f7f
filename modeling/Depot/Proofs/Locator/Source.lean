import Depot.Proofs.Locator.Environment

/-!
# Sources of the location

The location of the local repository may come from an override, from two settings files, and from
the home directory. Each of these sources is skipped or decides (`Source.Skipped`, `Decides`), and
the first one that decides settles the answer: nothing behind it is looked at.
-/

namespace Depot

/-! ### Placeholders -/

/-- Only the values of the keys in a text matter for its expansion. -/
lemma Placeholder.fill_congr {value? value?' : String → Option String} {parts : List Part}
    (h : ∀ name, .key name ∈ parts → value? (String.ofList name) = value?' (String.ofList name)) :
    fill value? parts = fill value?' parts := by
  induction parts with
  | nil => rfl
  | cons part rest ih =>
    have hrest := ih fun name hname => h name (List.mem_cons_of_mem _ hname)
    cases part with
    | plain c => rw [fill, fill, hrest]
    | key name => rw [fill, fill, hrest, h name List.mem_cons_self]

lemma Placeholder.exists_key_of_fill_eq_error {value? : String → Option String} {parts : List Part}
    {key : String} (h : fill value? parts = .error key) :
    ∃ name, .key name ∈ parts ∧ key = String.ofList name ∧ value? key = none := by
  induction parts with
  | nil => cases h
  | cons part rest ih =>
    have hlift : fill value? rest = .error key →
        ∃ name, .key name ∈ part :: rest ∧ key = String.ofList name ∧ value? key = none := by
      intro hrest
      obtain ⟨name, hname, hkey⟩ := ih hrest
      exact ⟨name, List.mem_cons_of_mem _ hname, hkey⟩
    cases part with
    | plain c => exact hlift (map_eq_error.1 h)
    | key name =>
      rw [fill] at h
      cases hvalue : value? (String.ofList name) with
      | none =>
        rw [hvalue] at h
        cases h
        exact ⟨name, List.mem_cons_self, rfl, hvalue⟩
      | some value =>
        rw [hvalue] at h
        exact hlift (map_eq_error.1 h)

namespace Locator

/-- The keys of the placeholders in a text. -/
def keysOf (text : String) : List String :=
  (Placeholder.cut text.toList).filterMap fun
    | .plain _ => none
    | .key name => some (String.ofList name)

lemma expand_congr {l l' : Locator} {text : String}
    (h : ∀ key ∈ keysOf text, l.value? key = l'.value? key) : l.expand text = l'.expand text := by
  have hfill : Placeholder.fill l.value? (Placeholder.cut text.toList) =
      Placeholder.fill l'.value? (Placeholder.cut text.toList) := by
    refine Placeholder.fill_congr fun name hname => h _ ?_
    exact List.mem_filterMap.2 ⟨_, hname, rfl⟩
  rw [expand, expand, Placeholder.expand, Placeholder.expand, hfill]

lemma exists_key_of_expand_eq_error {l : Locator} {text : String} {e : LocatorError}
    (h : l.expand text = .error e) :
    ∃ key ∈ keysOf text, l.value? key = none ∧ e = .unresolved key text := by
  obtain ⟨key, hkey, rfl⟩ := mapError_eq_error.1 h
  obtain ⟨name, hname, rfl, hvalue⟩ := Placeholder.exists_key_of_fill_eq_error (map_eq_error.1 hkey)
  exact ⟨_, List.mem_filterMap.2 ⟨_, hname, rfl⟩, hvalue, rfl⟩

/-! ### Sources -/

/-- What the location may come from. -/
inductive Source where
  | override (text : String)
  | settings (file : Path)
  | home (home? : Option Path)

/-- The sources of a locator, in the order in which they are asked. -/
def sources (l : Locator) : List Source :=
  (l.override.map Source.override).toList
    ++ (l.home.map fun home => .settings ((home.join ⟨".m2"⟩).join ⟨"settings.xml"⟩)).toList
    ++ (l.mavenHome.map fun dir => .settings ((dir.join ⟨"conf"⟩).join ⟨"settings.xml"⟩)).toList
    ++ [.home l.home]

/-- The text that a source gives for the location: an override as it is, and what a settings file
has for it without the blanks around it, if anything is left. -/
inductive Source.Gives (h : Host) : Source → String → Prop
  | override (text : String) : Gives h (.override text) text
  | settings {file : Path} {text location : String} (hholds : h.holds file = true)
      (htext : h.readText file = .ok text)
      (hlocation : Settings.location? text = .ok (some location))
      (hblank : Text.trim location ≠ "") : Gives h (.settings file) (Text.trim location)

/-- A source without a say: a settings file that is missing, or one without a location or with a
blank one. -/
inductive Source.Skipped (h : Host) : Source → Prop
  | missing {file : Path} (hholds : h.holds file = false) : Skipped h (.settings file)
  | silent {file : Path} {text : String} (hholds : h.holds file = true)
      (htext : h.readText file = .ok text) (hlocation : Settings.location? text = .ok none) :
      Skipped h (.settings file)
  | blank {file : Path} {text location : String} (hholds : h.holds file = true)
      (htext : h.readText file = .ok text)
      (hlocation : Settings.location? text = .ok (some location))
      (hblank : Text.trim location = "") : Skipped h (.settings file)

/-- A source that decides, with the answer: the expansion of the text that it gives, an error for a
settings file that cannot be read or understood, or a directory below the home directory, if there
is one. -/
inductive Decides (l : Locator) (h : Host) : Source → Except LocatorError Path → Prop
  | given {source : Source} {text : String} (hgives : source.Gives h text) :
      l.Decides h source ((l.expand text).map Path.mk)
  | unreadable {file : Path} {e : FileError} (hholds : h.holds file = true)
      (htext : h.readText file = .error e) :
      l.Decides h (.settings file) (.error (.unreadable file e))
  | malformed {file : Path} {text : String} {fault : Xml.Fault} (hholds : h.holds file = true)
      (htext : h.readText file = .ok text) (hfault : Settings.location? text = .error fault) :
      l.Decides h (.settings file) (.error (.malformed file fault))
  | home (home : Path) :
      l.Decides h (.home (some home)) (.ok ((home.join ⟨".m2"⟩).join ⟨"repository"⟩))
  | homeless : l.Decides h (.home none) (.error .noHome)

variable {l l' : Locator} {h h' : Host} {source : Source} {o : Except LocatorError Path}

/-! ### Asking one source -/

/-- The answer of a source, if it decides. -/
def ask (l : Locator) (h : Host) : Source → Option (Except LocatorError Path)
  | .override text => some ((l.expand text).map Path.mk)
  | .settings file =>
    match readSettings h file with
    | .error e => some (.error e)
    | .ok (some location) => some ((l.expand location).map Path.mk)
    | .ok none => none
  | .home (some home) => some (.ok ((home.join ⟨".m2"⟩).join ⟨"repository"⟩))
  | .home none => some (.error .noHome)

lemma ask_of_skipped (hs : source.Skipped h) : l.ask h source = none := by
  cases hs with
  | missing hholds => simp [ask, readSettings, hholds]
  | silent hholds htext hlocation => simp [ask, readSettings, hholds, htext, hlocation]
  | blank hholds htext hlocation hblank =>
    simp [ask, readSettings, hholds, htext, hlocation, hblank, Option.filter]

lemma ask_of_decides (hd : l.Decides h source o) : l.ask h source = some o := by
  cases hd with
  | given hgives =>
    cases hgives with
    | override text => rfl
    | settings hholds htext hlocation hblank =>
      simp [ask, readSettings, hholds, htext, hlocation, hblank, Option.filter]
  | unreadable hholds htext => simp [ask, readSettings, hholds, htext]
  | malformed hholds htext hfault => simp [ask, readSettings, hholds, htext, hfault]
  | home home => rfl
  | homeless => rfl

/-- A settings file is skipped or decides, by how far it can be read. -/
lemma skipped_or_decides_settings (l : Locator) (h : Host) (file : Path) :
    (Source.settings file).Skipped h ∨ ∃ o, l.Decides h (.settings file) o := by
  cases hholds : h.holds file with
  | false => exact .inl (.missing hholds)
  | true =>
    cases htext : h.readText file with
    | error e => exact .inr ⟨_, .unreadable hholds htext⟩
    | ok text =>
      cases hlocation : Settings.location? text with
      | error fault => exact .inr ⟨_, .malformed hholds htext hlocation⟩
      | ok location? =>
        cases location? with
        | none => exact .inl (.silent hholds htext hlocation)
        | some location =>
          by_cases hblank : Text.trim location = ""
          · exact .inl (.blank hholds htext hlocation hblank)
          · exact .inr ⟨_, .given (.settings hholds htext hlocation hblank)⟩

lemma skipped_or_decides (l : Locator) (h : Host) (source : Source) :
    source.Skipped h ∨ ∃ o, l.Decides h source o := by
  cases source with
  | override text => exact .inr ⟨_, .given (.override text)⟩
  | settings file => exact skipped_or_decides_settings l h file
  | home home? =>
    cases home? with
    | none => exact .inr ⟨_, .homeless⟩
    | some home => exact .inr ⟨_, .home home⟩

lemma ask_eq_none_iff : l.ask h source = none ↔ source.Skipped h := by
  refine ⟨fun hask => ?_, ask_of_skipped⟩
  rcases skipped_or_decides l h source with hs | ⟨o, hd⟩
  · exact hs
  · rw [ask_of_decides hd] at hask
    cases hask

lemma ask_eq_some_iff : l.ask h source = some o ↔ l.Decides h source o := by
  refine ⟨fun hask => ?_, ask_of_decides⟩
  rcases skipped_or_decides l h source with hs | ⟨o', hd⟩
  · rw [ask_of_skipped hs] at hask
    cases hask
  · rw [ask_of_decides hd] at hask
    cases hask
    exact hd

/-! ### Asking all sources -/

lemma sources_eq (l : Locator) : l.sources = (l.override.map Source.override).toList
    ++ (l.settingsFiles.map Source.settings ++ [.home l.home]) := by
  simp only [sources, settingsFiles, userSettings?, globalSettings?]
  cases l.home <;> cases l.mavenHome <;> simp

/-- Without an override, the settings files are asked one after another, and the home directory
last. -/
lemma findSome?_settings (l : Locator) (h : Host) (files : List Path) :
    (files.map Source.settings ++ [Source.home l.home]).findSome? (l.ask h) =
      some (match firstSetting h files with
        | .error e => .error e
        | .ok (some location) => (l.expand location).map Path.mk
        | .ok none => l.defaultLocation) := by
  induction files with
  | nil =>
    rw [defaultLocation]
    cases l.home <;> simp [firstSetting, ask]
  | cons file rest ih =>
    rw [List.map_cons, List.cons_append, List.findSome?_cons, ask, firstSetting]
    cases readSettings h file with
    | error e => rfl
    | ok location? =>
      cases location? with
      | none => exact ih
      | some location => rfl

/-- The location is the answer of the first source that decides. -/
theorem findSome?_sources (l : Locator) (h : Host) :
    l.sources.findSome? (l.ask h) = some (l.locate h) := by
  rw [sources_eq, locate]
  cases l.override with
  | some text => rfl
  | none => exact findSome?_settings l h l.settingsFiles

theorem locate_eq_iff : l.locate h = o ↔ ∃ before source after,
    l.sources = before ++ source :: after ∧ l.Decides h source o ∧
      ∀ s ∈ before, s.Skipped h := by
  rw [← Option.some_inj, ← findSome?_sources, List.findSome?_eq_some_iff]
  simp only [ask_eq_some_iff, ask_eq_none_iff]

/-! ### What does not matter -/

/-- Two hosts that are the same at the settings file of a source, if it is one. -/
def Source.Agrees (h h' : Host) (source : Source) : Prop :=
  ∀ file, source = .settings file →
    h.holds file = h'.holds file ∧ h.readText file = h'.readText file

lemma Source.Skipped.congr (hs : source.Skipped h) (ha : source.Agrees h h') :
    source.Skipped h' := by
  cases hs with
  | missing hholds =>
    obtain ⟨hholds', -⟩ := ha _ rfl
    exact .missing (hholds' ▸ hholds)
  | silent hholds htext hlocation =>
    obtain ⟨hholds', htext'⟩ := ha _ rfl
    exact .silent (hholds' ▸ hholds) (htext' ▸ htext) hlocation
  | blank hholds htext hlocation hblank =>
    obtain ⟨hholds', htext'⟩ := ha _ rfl
    exact .blank (hholds' ▸ hholds) (htext' ▸ htext) hlocation hblank

lemma Source.Gives.congr {text : String} (hg : source.Gives h text) (ha : source.Agrees h h') :
    source.Gives h' text := by
  cases hg with
  | override text => exact .override text
  | settings hholds htext hlocation hblank =>
    obtain ⟨hholds', htext'⟩ := ha _ rfl
    exact .settings (hholds' ▸ hholds) (htext' ▸ htext) hlocation hblank

lemma Decides.congr (hd : l.Decides h source o) (ha : source.Agrees h h')
    (hkeys : ∀ text, source.Gives h text → ∀ key ∈ keysOf text, l.value? key = l'.value? key) :
    l'.Decides h' source o := by
  cases hd with
  | @given source text hgives =>
    rw [expand_congr (hkeys text hgives)]
    exact .given (hgives.congr ha)
  | unreadable hholds htext =>
    obtain ⟨hholds', htext'⟩ := ha _ rfl
    exact .unreadable (hholds' ▸ hholds) (htext' ▸ htext)
  | malformed hholds htext hfault =>
    obtain ⟨hholds', htext'⟩ := ha _ rfl
    exact .malformed (hholds' ▸ hholds) (htext' ▸ htext) hfault
  | home home => exact .home home
  | homeless => exact .homeless

lemma ask_congr (ha : source.Agrees h h') : l.ask h source = l.ask h' source := by
  cases source with
  | override text => rfl
  | home home? => cases home? <;> rfl
  | settings file =>
    obtain ⟨hholds, htext⟩ := ha file rfl
    rw [ask, ask, readSettings, readSettings, hholds, htext]

lemma agrees_of_mem_sources (ha : ∀ file ∈ l.settingsFiles,
    h.holds file = h'.holds file ∧ h.readText file = h'.readText file) (hs : source ∈ l.sources) :
    source.Agrees h h' := by
  rintro file rfl
  rw [sources_eq] at hs
  apply ha file
  simpa using hs

/-- A locator answers alike on two hosts if each of its sources does. -/
lemma locate_eq_of_ask_eq (hask : ∀ source ∈ l.sources, l.ask h source = l.ask h' source) :
    l.locate h = l.locate h' := by
  have hfind : ∀ sources ⊆ l.sources,
      sources.findSome? (l.ask h) = sources.findSome? (l.ask h') := by
    intro sources hsources
    induction sources with
    | nil => rfl
    | cons source rest ih =>
      obtain ⟨hsource, hrest⟩ := List.cons_subset.1 hsources
      rw [List.findSome?_cons, List.findSome?_cons, hask source hsource, ih hrest]
  rw [← Option.some_inj, ← findSome?_sources, ← findSome?_sources]
  exact hfind l.sources (List.Subset.refl _)

/-- Of the file system, only the settings files matter. -/
lemma locate_congr (ha : ∀ file ∈ l.settingsFiles,
    h.holds file = h'.holds file ∧ h.readText file = h'.readText file) :
    l.locate h = l.locate h' :=
  locate_eq_of_ask_eq fun _ hs => ask_congr (agrees_of_mem_sources ha hs)

/-- A settings file that decides on an error is named in the message, unless the error is about a
placeholder in the text that it gives. -/
lemma Decides.message_names {file : Path} {e : LocatorError}
    (hd : l.Decides h (.settings file) (.error e)) :
    (∃ front back, e.message = front ++ file.text ++ back) ∨
      ∃ text, (Source.settings file).Gives h text ∧
        ∃ key ∈ keysOf text, l.value? key = none ∧ e = .unresolved key text := by
  generalize ho : (Except.error e : Except LocatorError Path) = o at hd
  cases hd with
  | given hgives =>
    have hexpand := map_eq_error.1 ho.symm
    exact .inr ⟨_, hgives, exists_key_of_expand_eq_error hexpand⟩
  | @unreadable _ error =>
    cases ho
    exact .inl ⟨"Unable to read local Maven settings file ", ": " ++ error.message,
      String.append_assoc⟩
  | @malformed _ _ fault =>
    cases ho
    exact .inl ⟨"Unable to parse local Maven settings file ", ": " ++ fault.message,
      String.append_assoc⟩

/-- The location of the local repository is what the first source makes of it that decides; the
sources before it are skipped. An error of a settings file names the file or a placeholder in it.
The sources behind the one that decides may be any others, and hold anything: with the same values
for the keys in the text that is given, the answer is the same. The override of a repositories file
is the location that the file has, or else the one in the environment. -/
theorem locate_by_first_source (l : Locator) (h : Host) :
    (∀ o, l.locate h = o ↔ ∃ before source after, l.sources = before ++ source :: after ∧
      l.Decides h source o ∧ ∀ s ∈ before, s.Skipped h) ∧
    (∀ file e, l.Decides h (.settings file) (.error e) →
      (∃ front back, e.message = front ++ file.text ++ back) ∨
        ∃ text, (Source.settings file).Gives h text ∧
          ∃ key ∈ keysOf text, l.value? key = none ∧ e = .unresolved key text) ∧
    (∀ (l' : Locator) (h' : Host) before source after after' o,
      l.sources = before ++ source :: after → l'.sources = before ++ source :: after' →
      (∀ s ∈ before, s.Skipped h) → l.Decides h source o →
      (∀ s ∈ source :: before, s.Agrees h h') →
      (∀ text, source.Gives h text → ∀ key ∈ keysOf text, l.value? key = l'.value? key) →
        l.locate h = o ∧ l'.locate h' = o) ∧
    ∀ f : RepositoriesFile, ((∃ l, f.locator h = .ok l) ↔ h.Legible) ∧
      ∀ l, f.locator h = .ok l →
        l.override = f.localRepository.or (h.environment? "MAVEN_REPO_LOCAL") ∧
        l.home = h.home? ∧ l.mavenHome = (h.environment? "M2_HOME").map Path.mk := by
  refine ⟨fun o => locate_eq_iff, fun file e => Decides.message_names, ?_, ?_⟩
  · intro l' h' before source after after' o hl hl' hskipped hdecides hagrees hkeys
    obtain ⟨hsource, hbefore⟩ := List.forall_mem_cons.1 hagrees
    have hskipped' : ∀ s ∈ before, s.Skipped h' := fun s hs =>
      (hskipped s hs).congr (hbefore s hs)
    exact ⟨locate_eq_iff.2 ⟨before, source, after, hl, hdecides, hskipped⟩,
      locate_eq_iff.2 ⟨before, source, after', hl', hdecides.congr hsource hkeys, hskipped'⟩⟩
  · intro f
    refine ⟨f.exists_locator_iff, fun l hl => ⟨f.override_of_locator hl, ?_⟩⟩
    obtain ⟨-, rfl⟩ := f.locator_eq_ok_iff.1 hl
    rw [RepositoriesFile.configure]
    cases f.localRepository <;> exact ⟨rfl, rfl⟩

/-- A host with texts for the settings files of a user and of an installation. -/
def hostWith (user installation : String) : Host where
  files := (FileSystem.empty.addFile (FileSystem.positionOf ⟨"/home/.m2/settings.xml"⟩)
    user.toUTF8).addFile (FileSystem.positionOf ⟨"/m2/conf/settings.xml"⟩) installation.toUTF8
  workingDirectory := .standing ⟨"/"⟩
  environment := []

/-- A malformed settings file decides, whatever the next one holds. -/
theorem locate_by_malformed_settings :
    let l : Locator := { home := some ⟨"/home"⟩, mavenHome := some ⟨"/m2"⟩ }
    let located := "<settings><localRepository>/data</localRepository></settings>"
    ∃ fault,
      l.locate (hostWith "<settings>" located) =
        .error (.malformed ⟨"/home/.m2/settings.xml"⟩ fault) ∧
      l.locate (hostWith "<settings>" "<settings") =
        .error (.malformed ⟨"/home/.m2/settings.xml"⟩ fault) := by
  intro l located
  have hdecides : l.Decides (hostWith "<settings>" located)
      (.settings ⟨"/home/.m2/settings.xml"⟩) _ := .malformed rfl rfl rfl
  refine ⟨_, (locate_by_first_source l (hostWith "<settings>" located)).2.2.1 l
    (hostWith "<settings>" "<settings") [] _ _ _ _ rfl rfl nofun hdecides ?_ fun _ _ _ _ => rfl⟩
  intro source hsource file hfile
  obtain rfl := List.mem_singleton.1 hsource
  cases hfile
  exact ⟨rfl, rfl⟩

end Locator

end Depot
