import Depot.Proofs.Roster.Outcome

/-!
# Spellings of one repository

One repository can be written in several ways: as a property map under a word, as the map alone, as
a URL, as a word alone. All of them come down to one request, so they are answered alike, leave the
same roster and take the same number of holders.
-/

namespace Depot

/-- An object that spells a property map out: its fields may stand in any order, and of two fields
with one key the later one counts. -/
def Json.Spells (v : Json) (m : Properties) : Prop :=
  ∃ fields, v = .object fields ∧ Properties.ofList fields = m

lemma Json.spells_toJson (m : Properties) : m.toJson.Spells m :=
  ⟨m.entries, rfl, m.ofList_entries⟩

namespace Roster

variable {f : Factory} {s : Roster} {v : Json} {m : Properties}

/-! ### Entries -/

lemma Request.ofEntry_single (w : Shorthand) (config : Json) :
    ofEntry (.object [(w.text, config)]) = ofShorthand w config := by
  have hentries : (Properties.ofList [(w.text, config)]).entries = [(w.text, config)] := rfl
  simp only [ofEntry, hentries, Shorthand.ofText?_text]

lemma Request.ofEntry_of_ne (hv : v.Spells m)
    (hm : ∀ (w : Shorthand) config, m.entries ≠ [(w.text, config)]) : ofEntry v = ofValue v := by
  obtain ⟨fields, rfl, rfl⟩ := hv
  rw [ofEntry]
  split
  · next key config hentries =>
    split
    · next w hw =>
      rw [← Shorthand.text_of_ofText? hw] at hentries
      exact absurd hentries (hm w config)
    · rfl
  · rfl

lemma declare_single (w : Shorthand) (hv : v.Spells m) :
    s.declare f (.object [(w.text, v)]) = w.declare f m s := by
  obtain ⟨fields, rfl, rfl⟩ := hv
  rw [declare_eq, Request.ofEntry_single]
  exact w.run_build f _ s

lemma declare_single_null (w : Shorthand) :
    s.declare f (.object [(w.text, .null)]) = w.declare f .empty s := by
  rw [declare_eq, Request.ofEntry_single]
  exact w.run_build f _ s

/-! ### Drafts -/

lemma add_spells (hv : v.Spells m) : s.add f (.value v) = s.maven f m := by
  obtain ⟨fields, rfl, rfl⟩ := hv
  rw [add_value_eq]
  exact Shorthand.run_build .maven f _ s

lemma declare_of_ne (hv : v.Spells m)
    (hm : ∀ (w : Shorthand) config, m.entries ≠ [(w.text, config)]) :
    s.declare f v = s.add f (.value v) := by
  rw [declare_eq, Request.ofEntry_of_ne hv hm, add_value_eq]

/-! ### URLs -/

/-- The only key of the map of a URL is no shorthand. -/
lemma Request.entries_urlOnly_ne (t : String) (w : Shorthand) (config : Json) :
    (urlOnly t).entries ≠ [(w.text, config)] := by
  have hentries : (urlOnly t).entries = [("url", .string t)] := rfl
  rw [hentries]
  cases w <;> simp [Shorthand.text]

lemma add_string (t : String) :
    s.add f (.value (.string t)) = s.maven f (Request.urlOnly t) := by
  rw [add_value_eq]
  exact Shorthand.run_build .maven f _ s

lemma declare_string {t : String} (hc : t ≠ "mavenCentral") (hl : t ≠ "mavenLocal") :
    s.declare f (.string t) = s.add f (.value (.string t)) := by
  rw [declare_eq, Request.ofEntry_string hc hl, add_value_eq]

/-! ### Words -/

/-- A word by itself, with null behind it or with an empty map. -/
lemma declare_word {w : Shorthand} (hw : w = .mavenCentral ∨ w = .mavenLocal) :
    s.declare f (.string w.text) = s.declare f (.object [(w.text, .null)]) ∧
      s.declare f (.object [(w.text, .null)]) = s.declare f (.object [(w.text, .object [])]) ∧
      s.declare f (.object [(w.text, .object [])]) = w.declare f .empty s := by
  have hword : s.declare f (.string w.text) = w.declare f .empty s := by
    rcases hw with rfl | rfl <;> rfl
  have hnull : s.declare f (.object [(w.text, .null)]) = w.declare f .empty s :=
    declare_single_null w
  have hmap : s.declare f (.object [(w.text, .object [])]) = w.declare f .empty s :=
    declare_single w (Json.spells_toJson .empty)
  exact ⟨hword.trans hnull.symm, hnull.trans hmap.symm, hmap⟩

/-- All ways of writing a repository agree in the answer, in the roster that they leave and in the
holders that they take: a property map behind the word for Maven, given to the operation, drafted,
or declared by itself unless its only key is a shorthand; a URL declared, drafted, or given as the
only property; and each of the two words by itself, with null or with an empty map behind it, or as
the operation. -/
theorem spellings_agree (f : Factory) (s : Roster) :
    (∀ m : Properties, m.toJson.Spells m ∧ ∀ v : Json, v.Spells m →
      s.declare f (.object [("maven", v)]) = s.maven f m ∧
      s.maven f m = s.add f (.value v) ∧
      ((∀ (w : Shorthand) config, m.entries ≠ [(w.text, config)]) →
        s.declare f v = s.add f (.value v))) ∧
    (∀ t, t ≠ "mavenCentral" → t ≠ "mavenLocal" →
      s.declare f (.string t) = s.add f (.value (.string t)) ∧
      s.add f (.value (.string t)) = s.declare f (.object [("url", .string t)]) ∧
      s.declare f (.object [("url", .string t)]) =
        s.maven f (Properties.ofList [("url", .string t)])) ∧
    (s.declare f (.string "mavenCentral") = s.declare f (.object [("mavenCentral", .null)]) ∧
      s.declare f (.object [("mavenCentral", .null)]) =
        s.declare f (.object [("mavenCentral", .object [])]) ∧
      s.declare f (.object [("mavenCentral", .object [])]) = s.mavenCentral f .empty) ∧
    (s.declare f (.string "mavenLocal") = s.declare f (.object [("mavenLocal", .null)]) ∧
      s.declare f (.object [("mavenLocal", .null)]) =
        s.declare f (.object [("mavenLocal", .object [])]) ∧
      s.declare f (.object [("mavenLocal", .object [])]) = s.mavenLocal f .empty) := by
  refine ⟨fun m => ⟨Json.spells_toJson m, fun v hv => ?_⟩, fun t hc hl => ?_,
    declare_word (.inl rfl), declare_word (.inr rfl)⟩
  · exact ⟨declare_single .maven hv, (add_spells hv).symm, declare_of_ne hv⟩
  · have hurl : Json.Spells (.object [("url", .string t)]) (Request.urlOnly t) := ⟨_, rfl, rfl⟩
    have hdeclare : s.declare f (.object [("url", .string t)]) = s.maven f (Request.urlOnly t) :=
      (declare_of_ne hurl (Request.entries_urlOnly_ne t)).trans (add_spells hurl)
    exact ⟨declare_string hc hl, (add_string t).trans hdeclare.symm, hdeclare⟩

/-- A map with its fields in another order, and a word that differs from a shorthand in one letter,
where the local repository cannot be located. -/
theorem spellings_agree_out_of_order :
    let f : Factory := ⟨fun _ => .error "no home", ⟨"/"⟩, fun _ => .empty, .numbered 0⟩
    let m := Properties.ofList [("name", .string "a"), ("url", .string "b")]
    let v := Json.object [("url", .string "b"), ("name", .string "a")]
    v.Spells m ∧ declare f (.object [("maven", v)]) {} = maven f m {} ∧
      declare f (.string "mavenlocal") {} = add f (.value (.string "mavenlocal")) {} := by
  intro f m v
  have hv : v.Spells m := ⟨_, rfl, rfl⟩
  obtain ⟨hmaps, hurls, -, -⟩ := spellings_agree f {}
  exact ⟨hv, ((hmaps m).2 v hv).1, (hurls "mavenlocal" (by decide) (by decide)).1⟩

end Roster

end Depot
