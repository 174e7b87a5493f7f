import Depot.Proofs.Factory.LocalUrl
import Depot.Proofs.Locator.Placeholder
import Depot.Proofs.Locator.Source

/-!
# Blank locations

A blank location in a settings file counts for nothing, but a blank override is taken at its word.
So a blank location comes from an override, or else from placeholders with blank values; and an
empty one makes the base directory the local repository (`Locator.locate_by_blank`,
`Locator.base_by_blank_override`).
-/

namespace Depot

/-! ### Blank texts -/

namespace Text

/-- A text that is empty or only white space. -/
def AllBlank (s : String) : Prop :=
  ∀ c ∈ s.toList, isBlank c = true

instance (s : String) : Decidable (AllBlank s) :=
  List.decidableBAll (fun c => isBlank c = true) s.toList

variable {s : String}

lemma allBlank_empty : AllBlank "" := nofun

/-- Nothing is left of a text without the blanks around it exactly if all of it is blank. -/
lemma trim_eq_empty_iff : trim s = "" ↔ AllBlank s := by
  have htrim : trim s = "" ↔ ∀ c ∈ s.toList.dropWhile isBlank, isBlank c = true := by
    rw [trim, ← String.toList_inj, String.toList_ofList, trimChars]
    simp
  rw [htrim]
  constructor
  · intro h c hc
    rw [← List.takeWhile_append_dropWhile (p := isBlank) (l := s.toList), List.mem_append] at hc
    rcases hc with hc | hc
    · exact List.mem_takeWhile_imp hc
    · exact h c hc
  · intro h c hc
    exact h c ((List.dropWhile_sublist _).mem hc)

/-- What is left of a text is not blank, unless nothing is. -/
lemma not_allBlank_trim (h : trim s ≠ "") : ¬ AllBlank (trim s) := by
  intro hblank
  apply h
  have hleft : ∀ c ∈ (s.toList.dropWhile isBlank).reverse.dropWhile isBlank, isBlank c = true := by
    intro c hc
    apply hblank
    rw [trim, String.toList_ofList]
    exact List.mem_reverse.2 hc
  have hnil := List.dropWhile_eq_nil_iff.2 hleft
  rw [List.dropWhile_idempotent] at hnil
  rw [trim, trimChars, hnil]
  rfl

end Text

open Text (AllBlank allBlank_empty isBlank trim_eq_empty_iff not_allBlank_trim)

/-! ### Expansion -/

namespace Placeholder

variable {text : String} {c : Cut}

/-- No placeholder opens in a blank text. -/
lemma cuts_of_allBlank (h : AllBlank text) : Cuts text.toList ⟨[], text.toList⟩ := by
  apply Cuts.plain
  intro s hs name after hopens
  have hdollar : '$' ∈ s := by
    rw [hopens.text]
    exact List.mem_cons_self
  exact absurd (h '$' (hs.mem hdollar)) (by decide)

lemma Cuts.eq_plain {cs : List Char} (hc : Cuts cs c) (h : c.keys = []) : c = ⟨[], cs⟩ := by
  cases hc with
  | plain => rfl
  | placeholder => cases h

/-- In a text that is filled to a blank one, the values of all keys are blank. -/
lemma Cut.allBlank_of_filled {value : String → String} (h : AllBlank (c.filled value))
    {key : String} (hkey : key ∈ c.keys) : AllBlank (value key) := by
  obtain ⟨p, hp, rfl⟩ := List.mem_map.1 hkey
  intro x hx
  apply h
  rw [filled, String.toList_ofList, List.mem_append, List.mem_flatMap]
  exact .inl ⟨p, hp, List.mem_append_right _ hx⟩

end Placeholder

/-! ### The base directory -/

namespace Factory

variable {f : Factory} {p : Path}

lemma components_resolve (hbase : f.base.isAbsolute = true)
    (hp : ¬ p.isAbsolute = true) : (f.resolve p).components =
      f.base.components ++ Path.ofPieces (Path.pieces p.text.toList) := by
  have hne : f.base.text ≠ "" := by
    intro hempty
    rw [Path.isAbsolute, hempty] at hbase
    cases hbase
  rw [resolve_eq, Path.components_join hne hp]

/-- Without a slash at the front and without dots, only the empty location is the base directory. -/
lemma resolve_equiv_base_iff (hbase : f.base.isAbsolute = true) :
    (f.resolve p).Equiv f.base ∧ ¬ p.isAbsolute = true ∧ '.' ∉ p.text.toList ↔ p.text = "" := by
  constructor
  · rintro ⟨hequiv, hp, hdot⟩
    rw [Path.Equiv, components_resolve hbase hp, List.append_right_eq_self] at hequiv
    cases htext : p.text.toList with
    | nil => exact String.toList_eq_nil_iff.1 htext
    | cons c cs =>
      have hslash : c ≠ '/' := by
        rintro rfl
        exact hp (Path.isAbsolute_iff.2 ⟨cs, htext⟩)
      obtain ⟨x, xs, hpieces⟩ := List.exists_cons_of_ne_nil (Path.pieces_ne_nil cs)
      rw [htext, Path.pieces_cons hslash hpieces, Path.ofPieces, List.map_eq_nil_iff,
        List.filter_eq_nil_iff] at hequiv
      have hidle := hequiv (c :: x) List.mem_cons_self
      obtain ⟨rfl, -⟩ : c = '.' ∧ x = [] := by simpa [Path.isIdle] using hidle
      rw [htext] at hdot
      exact absurd List.mem_cons_self hdot
  · intro hempty
    have hp : ¬ p.isAbsolute = true := by simp [Path.isAbsolute, hempty]
    refine ⟨?_, hp, ?_⟩
    · rw [Path.Equiv, components_resolve hbase hp, hempty]
      exact List.append_nil _
    · simp [hempty]

end Factory

namespace Locator

open Placeholder (Cut Cuts)

variable {l : Locator} {h h' : Host} {source : Source} {text : String} {p : Path}

lemma expand_of_allBlank (l : Locator) (h : AllBlank text) : l.expand text = .ok text := by
  refine (expand_eq_ok_iff (Placeholder.cuts_of_allBlank h)).2 ⟨nofun, ?_⟩
  rw [Cut.filled, List.flatMap_nil, List.nil_append, String.ofList_toList]

/-! ### Blank sources -/

/-- A settings file has a blank location. -/
def HasBlank (h : Host) (file : Path) : Prop :=
  ∃ text location, h.holds file = true ∧ h.readText file = .ok text ∧
    Settings.location? text = .ok (some location) ∧ AllBlank location

/-- A settings file is missing or has no location. -/
def HasNone (h : Host) (file : Path) : Prop :=
  h.holds file = false ∨ ∃ text, h.holds file = true ∧ h.readText file = .ok text ∧
    Settings.location? text = .ok none

lemma HasBlank.skipped {file : Path} (hf : HasBlank h file) : (Source.settings file).Skipped h := by
  obtain ⟨text, location, hholds, htext, hlocation, hblank⟩ := hf
  exact .blank hholds htext hlocation (trim_eq_empty_iff.2 hblank)

lemma HasNone.skipped {file : Path} (hf : HasNone h file) : (Source.settings file).Skipped h := by
  rcases hf with hholds | ⟨text, hholds, htext, hlocation⟩
  · exact .missing hholds
  · exact .silent hholds htext hlocation

/-- A blank location in a settings file makes no difference to none. -/
lemma locate_eq_of_hasBlank (hfiles : ∀ file ∈ l.settingsFiles,
    (Source.settings file).Agrees h h' ∨ HasBlank h file ∧ HasNone h' file) :
    l.locate h = l.locate h' := by
  refine locate_eq_of_ask_eq fun source hsource => ?_
  cases source with
  | override | home => exact ask_congr nofun
  | settings file =>
    have hfile : file ∈ l.settingsFiles := by
      rw [sources_eq] at hsource
      simpa using hsource
    rcases hfiles file hfile with hagrees | ⟨hblank, hnone⟩
    · exact ask_congr hagrees
    · rw [ask_of_skipped hblank.skipped, ask_of_skipped hnone.skipped]

lemma locate_of_override (hl : l.override = some text) (h : Host) :
    l.locate h = (l.expand text).map Path.mk := by
  rw [locate, hl]

/-- A blank override is taken at its word. -/
lemma locate_of_blank_override (hl : l.override = some text) (hblank : AllBlank text) (h : Host) :
    l.locate h = .ok ⟨text⟩ := by
  rw [locate_of_override hl, expand_of_allBlank l hblank]
  rfl

/-! ### Blank locations -/

/-- A source gives a text with placeholders, whose values are all blank. -/
def BlankValues (l : Locator) (h : Host) (source : Source) : Prop :=
  ∃ text c, source.Gives h text ∧ Cuts text.toList c ∧ c.keys ≠ [] ∧
    ∀ key ∈ c.keys, ∃ value, l.value? key = some value ∧ AllBlank value

/-- The directory below the home directory is not blank. -/
lemma not_allBlank_join_repository (dir : Path) : ¬ AllBlank (dir.join ⟨"repository"⟩).text := by
  intro hblank
  obtain ⟨front, hfront⟩ := Path.exists_text_join dir ⟨"repository"⟩
  have hmem : 'r' ∈ (dir.join ⟨"repository"⟩).text.toList := by
    rw [hfront, String.toList_append]
    exact List.mem_append_right _ (by decide)
  exact absurd (hblank 'r' hmem) (by decide)

lemma Decides.override_or_blankValues (hd : l.Decides h source (.ok p)) (hp : AllBlank p.text) :
    source = .override p.text ∨ l.BlankValues h source := by
  generalize ho : (Except.ok p : Except LocatorError Path) = o at hd
  cases hd with
  | @given _ text hgives =>
    obtain ⟨s, hs, rfl⟩ := map_eq_ok.1 ho.symm
    obtain ⟨c, hc, -⟩ := Placeholder.exists_cuts text.toList
    obtain ⟨hvalues, hfilled⟩ := (expand_eq_ok_iff hc).1 hs
    by_cases hkeys : c.keys = []
    · -- Without placeholders, the text is blank itself, as only an override can be.
      obtain rfl := hc.eq_plain hkeys
      obtain rfl : s = text := by
        rw [hfilled, Cut.filled, List.flatMap_nil, List.nil_append, String.ofList_toList]
      cases hgives with
      | override => exact .inl rfl
      | settings _ _ _ hblank => exact absurd hp (not_allBlank_trim hblank)
    · refine .inr ⟨text, c, hgives, hc, hkeys, fun key hkey => ?_⟩
      obtain ⟨value, hvalue⟩ := Option.isSome_iff_exists.1 (hvalues key hkey)
      have hblank : AllBlank s := hp
      rw [hfilled] at hblank
      have hkeyBlank := Cut.allBlank_of_filled hblank hkey
      rw [hvalue] at hkeyBlank
      exact ⟨value, hvalue, hkeyBlank⟩
  | home home =>
    obtain rfl := Except.ok.inj ho
    exact absurd hp (not_allBlank_join_repository (home.join ⟨".m2"⟩))
  | unreadable | malformed | homeless => cases ho

lemma override_or_blankValues (hlocate : l.locate h = .ok p) (hp : AllBlank p.text) :
    l.override = some p.text ∨ ∃ source ∈ l.sources, l.BlankValues h source := by
  obtain ⟨before, source, after, hsources, hd, -⟩ := locate_eq_iff.1 hlocate
  have hmem : source ∈ l.sources := by
    rw [hsources]
    exact List.mem_append_right _ List.mem_cons_self
  rcases hd.override_or_blankValues hp with rfl | hvalues
  · left
    rw [sources_eq] at hmem
    simpa using hmem
  · exact .inr ⟨source, hmem, hvalues⟩

/-- Blank texts for the location. A blank override is the location as it stands, be it in a
repositories file or in the environment. A blank location in a settings file leads to what having
none leads to, whichever of the files it is in. So where a blank location comes out, it is the
override, or a source gives a text with placeholders that have blank values. Without a slash at the
front and without dots, the location makes the base directory the local repository exactly if it is
empty. -/
theorem locate_by_blank (l : Locator) (h : Host) :
    (∀ text, l.override = some text → AllBlank text → l.locate h = .ok ⟨text⟩) ∧
    (∀ (f : RepositoriesFile) l' text, f.locator h = .ok l' →
      f.localRepository.or (h.environment? "MAVEN_REPO_LOCAL") = some text → AllBlank text →
        l'.locate h = .ok ⟨text⟩) ∧
    (∀ h' : Host, (∀ file ∈ l.settingsFiles,
      (Source.settings file).Agrees h h' ∨ HasBlank h file ∧ HasNone h' file) →
        l.locate h = l.locate h') ∧
    ∀ p, l.locate h = .ok p →
      (AllBlank p.text → l.override = some p.text ∨ ∃ source ∈ l.sources, l.BlankValues h source) ∧
      ∀ f : Factory, f.base.isAbsolute = true →
        ((f.resolve p).Equiv f.base ∧ ¬ p.isAbsolute = true ∧ '.' ∉ p.text.toList ↔
          p.text = "") := by
  refine ⟨fun text hl hblank => ?_, fun f l' text hl hf hblank => ?_,
    fun h' => locate_eq_of_hasBlank,
    fun p hlocate => ⟨override_or_blankValues hlocate, fun f => Factory.resolve_equiv_base_iff⟩⟩
  · exact locate_of_blank_override hl hblank h
  · rw [← f.override_of_locator hl] at hf
    exact locate_of_blank_override hf hblank h

/-- A text of a settings file with a location. -/
def settingsWith (location : String) : String :=
  "<settings><localRepository>" ++ location ++ "</localRepository></settings>"

/-- A blank override; and a blank location of the user, which makes no difference, in front of one
of the installation with a placeholder for an empty value. -/
theorem locate_by_blank_settings :
    let l : Locator := {
      home := some ⟨"/home"⟩
      mavenHome := some ⟨"/m2"⟩
      environment := [("E", "")] }
    let f := Factory.locating ⟨"/work"⟩ (.ok ⟨""⟩)
    let h := hostWith (settingsWith " \t") (settingsWith "$\x7benv.E\x7d")
    let h' := hostWith "<settings/>" (settingsWith "$\x7benv.E\x7d")
    { l with override := some " " }.locate h = .ok ⟨" "⟩ ∧
    l.locate h = l.locate h' ∧ l.locate h' = .ok ⟨""⟩ ∧
    (∃ source ∈ l.sources, l.BlankValues h' source) ∧ (f.resolve ⟨""⟩).Equiv f.base := by
  intro l f h h'
  have hfile : (Source.settings ⟨"/m2/conf/settings.xml"⟩).Agrees h h' := by
    rintro file hfile
    cases hfile
    exact ⟨rfl, rfl⟩
  have hblank : HasBlank h ⟨"/home/.m2/settings.xml"⟩ :=
    ⟨settingsWith " \t", " \t", rfl, rfl, toOption_eq_some.1 (by decide +kernel), by decide⟩
  have hnone : HasNone h' ⟨"/home/.m2/settings.xml"⟩ := .inr ⟨"<settings/>", rfl, rfl, rfl⟩
  have hempty : l.locate h' = .ok ⟨""⟩ := toOption_eq_some.1 (by decide +kernel)
  obtain ⟨hvalues, hbase⟩ := (locate_by_blank l h').2.2.2 _ hempty
  refine ⟨?_, ?_, hempty, (hvalues allBlank_empty).resolve_left nofun,
    ((hbase f (by decide)).2 rfl).1⟩
  · exact (locate_by_blank { l with override := some " " } h).1 " " rfl (by decide)
  · refine (locate_by_blank l h).2.2.1 h' (List.forall_mem_cons.2 ⟨.inr ⟨hblank, hnone⟩, ?_⟩)
    exact List.forall_mem_singleton.2 (.inl hfile)

/-- An empty override in the environment makes the base directory the local repository, although the
locator finds another directory without it. -/
theorem base_by_blank_override :
    let h : Host := {
      files := .empty
      workingDirectory := .standing ⟨"/work"⟩
      environment := [⟨"HOME", "/home", true⟩, ⟨"MAVEN_REPO_LOCAL", "", true⟩] }
    let f : RepositoriesFile := {}
    ∃ l g, f.locator h = .ok l ∧ l.locate h = .ok ⟨""⟩ ∧
      { l with override := none }.locate h = .ok ⟨"/home/.m2/repository"⟩ ∧
      f.factory h ⟨"/work"⟩ = .ok g ∧
      ∃ r, (g.mavenLocal 0).1 = .ok r ∧ r.url = some "file:///work/" := by
  intro h f
  have hl : f.locator h = .ok (.ofVariables h h.texts) := rfl
  have hempty := locate_of_blank_override (f.override_of_locator hl) allBlank_empty h
  have hlocate : (f.factoryWith h ⟨"/work"⟩ (.ofVariables h h.texts)).locate 0 = .ok ⟨""⟩ := by
    rw [RepositoriesFile.factoryWith, hempty]
    rfl
  refine ⟨_, _, hl, hempty, toOption_eq_some.1 (by decide +kernel),
    f.factory_eq_ok_iff.2 ⟨_, hl, rfl⟩, _, Factory.mavenLocal_of_absolute hlocate (by decide), ?_⟩
  decide +kernel

end Locator

end Depot
