import Depot.Proofs.Roster.Entries
import Depot.Proofs.Roster.Holders
import Depot.Proofs.Roster.Numbering
import Depot.RepositoriesFile.Basic
import Mathlib.Algebra.GroupWithZero.Nat

/-!
# The order of entries

What an entry asks for does not depend on the entries around it: the roster that it finds settles
no more than the number behind a name that was not given. So, unless a given name looks like one
that the roster assigns by itself (`Automatic`), all orders of some entries are accepted or none is,
and all of them declare the same repositories under the same names, up to the choice of numbers
(`declareAll_perm`).
-/

namespace Depot

namespace Roster

/-! ### Automatic names -/

/-- A name like those that the roster assigns by itself: a base with nothing but digits behind
it. -/
def Automatic (name : String) : Prop :=
  ∃ (w : Shorthand) (digits : List Char),
    name.toList = w.base.toList ++ digits ∧ ∀ c ∈ digits, c.isDigit = true

lemma automatic_iff {name : String} :
    Automatic name ↔ ∃ w ∈ Shorthand.all, stem name = w.base.toList := by
  constructor
  · rintro ⟨w, digits, hname, hdigits⟩
    have hstem := w.stem_base
    refine ⟨w, by cases w <;> decide, ?_⟩
    rw [stem, hname, List.reverse_append, List.dropWhile_append_of_pos (by simpa using hdigits)]
    exact hstem
  · rintro ⟨w, -, hstem⟩
    refine ⟨w, (name.toList.reverse.takeWhile Char.isDigit).reverse, ?_, ?_⟩
    · rw [← hstem, stem, ← List.reverse_append, List.takeWhile_append_dropWhile,
        List.reverse_reverse]
    · intro c hc
      have hall := List.all_takeWhile (p := Char.isDigit) (l := name.toList.reverse)
      exact List.all_eq_true.1 hall c (List.mem_reverse.1 hc)

instance : DecidablePred Automatic := fun _ => decidable_of_iff _ automatic_iff.symm

lemma automatic_ordinal (w : Shorthand) (j : Nat) : Automatic (w.ordinal j) :=
  automatic_iff.2 ⟨w, by cases w <;> decide, w.stem_ordinal j⟩

/-- The repository without its name if that may have been assigned automatically. -/
def dropAutomatic (r : Repository) : Repository :=
  if Automatic r.name then r.withName "" else r

lemma dropAutomatic_withName {r : Repository} {name : String} (hr : Automatic r.name)
    (hname : Automatic name) : dropAutomatic (r.withName name) = dropAutomatic r := by
  rw [dropAutomatic, if_pos (by rwa [Repository.name_withName]), dropAutomatic, if_pos hr]
  cases r <;> rfl

/-! ### What an entry asks for -/

/-- The repository that an entry asks for, under the name that it has before it is entered. -/
def built? (f : Factory) (entry : Json) : Option Repository :=
  ((Request.ofEntry entry).result f 0).1.toOption

/-- The name that an entry gives to the repository that it asks for. -/
def given? (f : Factory) (entry : Json) : Option String :=
  if (Request.ofEntry entry).explicit then (built? f entry).map Repository.name else none

/-- The family of an entry that gives no name. -/
def unnamedFamily? (entry : Json) : Option Shorthand :=
  if (Request.ofEntry entry).explicit then none else (Request.ofEntry entry).family?

variable {f : Factory} {s t : Roster} {entry : Json} {entries : List Json} {r u : Repository}
  {given : List String} {count : Shorthand → Nat} {w : Shorthand} {name : String}

lemma built?_eq_some_iff (hf : f.Steady) (used : Nat) :
    built? f entry = some r ↔ ((Request.ofEntry entry).result f used).1 = .ok r := by
  rw [built?, toOption_eq_some, Request.result_of_steady hf]

/-- A declaration that succeeds settles what the entry asks for. -/
lemma settled_of_declare (hf : f.Steady) (h : s.declare f entry = (.ok u, t)) :
    ∃ r, built? f entry = some r ∧ s.Settled r (Request.ofEntry entry).explicit u ∧
      t.declared = s.declared ++ [u] := by
  have hrun : s.run f (.declare entry) = _ := h
  obtain ⟨r, hr, hsettled, ht⟩ := run_eq_ok hrun
  exact ⟨r, (built?_eq_some_iff hf _).2 hr, hsettled, ht⟩

/-- What an entry asks for is declared unless a name that it gives is taken. -/
lemma exists_declare (hf : f.Steady) (h : built? f entry = some r)
    (hfree : ∀ name, given? f entry = some name → name ∉ s.names) :
    ∃ u t, s.declare f entry = (.ok u, t) := by
  have hresult := (built?_eq_some_iff hf s.used).1 h
  rw [declare_eq, Request.run]
  generalize (Request.ofEntry entry).result f s.used = result at hresult ⊢
  obtain ⟨_, used⟩ := result
  subst hresult
  cases henter : enter { s with used } r (Request.ofEntry entry).explicit with
  | mk result t =>
    cases result with
    | ok u => exact ⟨u, t, henter⟩
    | error e =>
      obtain ⟨⟨hexplicit, htaken⟩, -, -⟩ := enter_eq_error_iff.1 henter
      exact absurd htaken (hfree r.name (by rw [given?, if_pos hexplicit, h, Option.map_some]))

/-- A name that an entry gives was free if the entry is declared. -/
lemma free_of_given (hgiven : given? f entry = some name) (hbuilt : built? f entry = some r)
    (hsettled : s.Settled r (Request.ofEntry entry).explicit u) : name ∉ s.names := by
  rw [given?] at hgiven
  split_ifs at hgiven with hexplicit
  rw [hbuilt, Option.map_some] at hgiven
  obtain rfl := Option.some.inj hgiven
  rw [← hsettled.eq_of_explicit hexplicit]
  exact hsettled.name_free

/-! ### One entry -/

/-- The names in a roster: those that were given, none of which looks automatic, and those of each
family up to a count. -/
structure Tallied (s : Roster) (given : List String) (count : Shorthand → Nat) : Prop where
  apart : ∀ name ∈ given, ¬ Automatic name
  mem_iff : ∀ name, name ∈ s.names ↔ name ∈ given ∨ Ordinal count name

lemma tallied_empty (used : Nat) : Tallied { used } [] fun _ => 0 where
  apart := by simp
  mem_iff name := by
    simp only [names, List.map_nil, List.not_mem_nil, false_or, false_iff]
    rintro ⟨w, j, hj, hle, -⟩
    exact absurd (Nat.le_trans hj hle) (Nat.not_succ_le_zero 0)

lemma not_ordinal (hname : ¬ Automatic name) : ¬ Ordinal count name := by
  rintro ⟨w, j, -, -, rfl⟩
  exact hname (automatic_ordinal w j)

lemma Tallied.counted (h : s.Tallied given count) : s.Counted count := by
  intro w j hj
  rw [h.mem_iff, or_iff_right fun hgiven => h.apart _ hgiven (automatic_ordinal w j)]
  constructor
  · rintro ⟨w', i, -, hi, heq⟩
    obtain ⟨rfl, rfl⟩ := Shorthand.ordinal_inj heq
    exact hi
  · intro hle
    exact ⟨w, j, hj, hle, rfl⟩

/-- A name that does not look automatic is taken only if it was given. -/
lemma Tallied.mem_given_iff (h : s.Tallied given count) (hname : ¬ Automatic name) :
    name ∈ s.names ↔ name ∈ given := by
  rw [h.mem_iff, or_iff_left (not_ordinal hname)]

lemma Tallied.append_given (h : s.Tallied given count) (hname : ¬ Automatic u.name)
    (ht : t.declared = s.declared ++ [u]) : t.Tallied (given ++ [u.name]) count where
  apart := by simpa [or_imp, forall_and] using ⟨h.apart, hname⟩
  mem_iff name := by
    rw [names, ht, List.map_append, List.mem_append, ← names, h.mem_iff, List.mem_append,
      or_right_comm]
    rfl

lemma Tallied.append_ordinal (h : s.Tallied given count)
    (hname : u.name = w.ordinal (count w + 1)) (ht : t.declared = s.declared ++ [u]) :
    t.Tallied given fun w' => count w' + if w' = w then 1 else 0 where
  apart := h.apart
  mem_iff name := by
    rw [names, ht, List.map_append, List.mem_append, ← names, h.mem_iff, List.map_singleton,
      List.mem_singleton, hname, ordinal_succ_iff, or_assoc]

/-- How many names of a family an entry takes. -/
def taken (entry : Json) (w : Shorthand) : Nat :=
  if unnamedFamily? entry = some w then 1 else 0

/-- Declaring an entry adds the name that it gives or the next one of its family. -/
lemma Tallied.settle (hf : f.Steady) (h : s.Tallied given count)
    (hname : ∀ name, given? f entry = some name → ¬ Automatic name)
    (hbuilt : built? f entry = some r) (hsettled : s.Settled r (Request.ofEntry entry).explicit u)
    (ht : t.declared = s.declared ++ [u]) :
    t.Tallied (given ++ (given? f entry).toList) (fun w => count w + taken entry w) := by
  cases hexplicit : (Request.ofEntry entry).explicit with
  | true =>
    have hgiven : given? f entry = some u.name := by
      rw [given?, if_pos hexplicit, hbuilt, hsettled.eq_of_explicit hexplicit, Option.map_some]
    have htaken : ∀ w, taken entry w = 0 := by simp [taken, unnamedFamily?, hexplicit]
    simpa [hgiven, htaken] using h.append_given (hname _ hgiven) ht
  | false =>
    have hgiven : given? f entry = none := by simp [given?, hexplicit]
    obtain ⟨w, hw, hbase⟩ := Request.exists_family hexplicit ((built?_eq_some_iff hf 0).1 hbuilt)
    have htaken : ∀ w', taken entry w' = if w' = w then 1 else 0 := by
      simp [taken, unnamedFamily?, hexplicit, hw, eq_comm]
    rw [hexplicit] at hsettled
    simpa [hgiven, htaken] using h.append_ordinal (h.counted.name_eq hbase hsettled) ht

/-- Settling changes an automatic name at most. -/
lemma dropAutomatic_of_settled (hf : f.Steady) (h : s.Tallied given count)
    (hbuilt : built? f entry = some r)
    (hsettled : s.Settled r (Request.ofEntry entry).explicit u) :
    dropAutomatic u = dropAutomatic r := by
  cases hexplicit : (Request.ofEntry entry).explicit with
  | true => rw [hsettled.eq_of_explicit hexplicit]
  | false =>
    obtain ⟨w, -, hbase⟩ := Request.exists_family hexplicit ((built?_eq_some_iff hf 0).1 hbuilt)
    rw [hexplicit] at hsettled
    have hr : Automatic r.name := by
      rw [hbase, ← w.ordinal_one]
      exact automatic_ordinal w 1
    have hu : Automatic u.name := by
      rw [h.counted.name_eq hbase hsettled]
      exact automatic_ordinal w _
    rw [hsettled.eq_withName, dropAutomatic_withName hr hu]

/-! ### All entries -/

/-- What is left behind when all of some entries are declared. -/
lemma DeclaresAll.tallied (hf : f.Steady) (h : DeclaresAll f s entries t)
    (hs : s.Tallied given count)
    (hnames : ∀ entry ∈ entries, ∀ name, given? f entry = some name → ¬ Automatic name) :
    t.Tallied (given ++ entries.filterMap (given? f))
        (fun w => count w + (entries.map (taken · w)).sum) ∧
      t.declared.map dropAutomatic =
        s.declared.map dropAutomatic ++ (entries.filterMap (built? f)).map dropAutomatic := by
  induction h generalizing given count with
  | nil => simpa using hs
  | @cons s t _ u entry rest hentry _ ih =>
    obtain ⟨hname, hnames⟩ := List.forall_mem_cons.1 hnames
    obtain ⟨r, hbuilt, hsettled, ht⟩ := settled_of_declare hf hentry
    obtain ⟨htallied, hdeclared⟩ := ih (hs.settle hf hname hbuilt hsettled ht) hnames
    constructor
    · cases hgiven : given? f entry <;>
        simpa [hgiven, List.filterMap_cons, Nat.add_assoc] using htallied
    · rw [hdeclared, ht, List.filterMap_cons_some hbuilt]
      simp [dropAutomatic_of_settled hf hs hbuilt hsettled]

/-- The name that an entry gives is none of those given before exactly if no repository bears it. -/
lemma Tallied.nodup_concat_iff (hs : s.Tallied given count) (hgiven : given.Nodup)
    (hname : ∀ name, given? f entry = some name → ¬ Automatic name) :
    (given ++ (given? f entry).toList).Nodup ↔
      ∀ name, given? f entry = some name → name ∉ s.names := by
  cases h : given? f entry with
  | none => simpa using hgiven
  | some name =>
    have hmem : name ∈ s.names ↔ name ∈ given := hs.mem_given_iff (hname name h)
    rw [Option.toList_some, List.nodup_append_comm, List.singleton_append, List.nodup_cons, ← hmem]
    simp [hgiven]

/-- Entries are declared together if each asks for a repository and no two give one name. -/
lemma exists_declaresAll_iff (hf : f.Steady) (hs : s.Tallied given count)
    (hgiven : given.Nodup)
    (hnames : ∀ entry ∈ entries, ∀ name, given? f entry = some name → ¬ Automatic name) :
    (∃ t, DeclaresAll f s entries t) ↔
      (∀ entry ∈ entries, ∃ r, built? f entry = some r) ∧
        (given ++ entries.filterMap (given? f)).Nodup := by
  induction entries generalizing s given count with
  | nil =>
    rw [List.filterMap_nil, List.append_nil]
    exact ⟨fun _ => ⟨by simp, hgiven⟩, fun _ => ⟨s, .nil s⟩⟩
  | cons entry rest ih =>
    obtain ⟨hname, hnames⟩ := List.forall_mem_cons.1 hnames
    have hassoc : given ++ (entry :: rest).filterMap (given? f) =
        given ++ (given? f entry).toList ++ rest.filterMap (given? f) := by
      cases h : given? f entry <;> simp [h]
    have hnodup := hs.nodup_concat_iff hgiven hname
    rw [hassoc, List.forall_mem_cons]
    constructor
    · rintro ⟨t, h⟩
      cases h with
      | @cons _ t' _ u _ _ hentry hrest =>
        obtain ⟨r, hbuilt, hsettled, ht⟩ := settled_of_declare hf hentry
        have hfront := hnodup.2 fun name h => free_of_given h hbuilt hsettled
        obtain ⟨hall, hrest⟩ :=
          (ih (hs.settle hf hname hbuilt hsettled ht) hfront hnames).1 ⟨_, hrest⟩
        exact ⟨⟨⟨r, hbuilt⟩, hall⟩, hrest⟩
    · rintro ⟨⟨⟨r, hbuilt⟩, hall⟩, hgivenAll⟩
      have hfront := (List.nodup_append.1 hgivenAll).1
      obtain ⟨u, t, hentry⟩ := exists_declare hf hbuilt (hnodup.1 hfront)
      obtain ⟨r', hbuilt', hsettled, ht⟩ := settled_of_declare hf hentry
      obtain ⟨t', hrest⟩ :=
        (ih (hs.settle hf hname hbuilt' hsettled ht) hfront hnames).2 ⟨hall, hgivenAll⟩
      exact ⟨t', .cons hentry hrest⟩

lemma nodup_names_of_declaresAll (h : DeclaresAll f s entries t) (hs : s.names.Nodup) :
    t.names.Nodup := by
  induction h with
  | nil => exact hs
  | @cons s t _ _ entry _ hentry _ ih =>
    have hext := run_extends f (.declare entry) s
    rw [run, hentry] at hext
    exact ih (hext.nodup_names hs)

/-! ### All orders -/

lemma gives_of_given? (hgiven : given? f entry = some name) :
    (Request.ofEntry entry).Gives (.string name) := by
  rw [given?] at hgiven
  split_ifs at hgiven with hexplicit
  obtain ⟨r, hbuilt, rfl⟩ := Option.map_eq_some_iff.1 hgiven
  obtain ⟨v, hv⟩ := Request.explicit_iff.1 hexplicit
  rwa [← hv.eq_name (toOption_eq_some.1 hbuilt)]

lemma given?_of_gives (hbuilt : built? f entry = some r)
    (h : (Request.ofEntry entry).Gives (.string name)) : given? f entry = some name := by
  have hname := h.eq_name (toOption_eq_some.1 hbuilt)
  rw [given?, if_pos (Request.explicit_iff.2 ⟨_, h⟩), hbuilt, Option.map_some,
    Json.string.inj hname]

/-- Unless a given name looks automatic, the order of the entries makes no difference to whether all
of them are declared, to the names that there are then, nor to the repositories, up to which of them
bears which automatic name. -/
theorem declareAll_perm (hf : f.Steady) {x y : RepositoriesFile}
    (hnames : ∀ entry ∈ x.repositories, ∀ name,
      (Request.ofEntry entry).Gives (.string name) → ¬ Automatic name)
    (hperm : x.repositories.Perm y.repositories) :
    ((x.declareAll f {}).1 = .ok () ↔ (y.declareAll f {}).1 = .ok ()) ∧
      ((x.declareAll f {}).1 = .ok () →
        (x.declareAll f {}).2.names.Perm (y.declareAll f {}).2.names ∧
        ((x.declareAll f {}).2.declared.map dropAutomatic).Perm
          ((y.declareAll f {}).2.declared.map dropAutomatic)) := by
  have hx : ∀ entry ∈ x.repositories, ∀ name, given? f entry = some name → ¬ Automatic name :=
    fun entry hentry name hgiven => hnames entry hentry name (gives_of_given? hgiven)
  have hy : ∀ entry ∈ y.repositories, ∀ name, given? f entry = some name → ¬ Automatic name :=
    fun entry hentry => hx entry (hperm.mem_iff.2 hentry)
  have hiff : (∃ t, DeclaresAll f {} x.repositories t) ↔
      ∃ t, DeclaresAll f {} y.repositories t := by
    rw [exists_declaresAll_iff hf (tallied_empty 0) List.nodup_nil hx,
      exists_declaresAll_iff hf (tallied_empty 0) List.nodup_nil hy,
      ((hperm.filterMap _).append_left []).nodup_iff]
    simp only [hperm.mem_iff]
  have hok : ∀ z : RepositoriesFile, (z.declareAll f {}).1 = .ok () ↔
      ∃ t, DeclaresAll f {} z.repositories t := by
    intro z
    constructor
    · intro h
      exact ⟨_, declareAll_eq_ok_iff.1 (Prod.ext h rfl)⟩
    · rintro ⟨t, h⟩
      exact congrArg Prod.fst (declareAll_eq_ok_iff.2 h)
  rw [hok, hok]
  refine ⟨hiff, fun hdeclares => ?_⟩
  obtain ⟨t, ht⟩ := hdeclares
  obtain ⟨u, hu⟩ := hiff.1 ⟨t, ht⟩
  obtain ⟨htnames, htdeclared⟩ := ht.tallied hf (tallied_empty 0) hx
  obtain ⟨hunames, hudeclared⟩ := hu.tallied hf (tallied_empty 0) hy
  rw [RepositoriesFile.declareAll, RepositoriesFile.declareAll, declareAll_eq_ok_iff.2 ht,
    declareAll_eq_ok_iff.2 hu]
  refine ⟨(List.perm_ext_iff_of_nodup ?_ ?_).2 fun name => ?_, ?_⟩
  · exact nodup_names_of_declaresAll ht List.nodup_nil
  · exact nodup_names_of_declaresAll hu List.nodup_nil
  · have hsum : ∀ w, (x.repositories.map (taken · w)).sum = (y.repositories.map (taken · w)).sum :=
      fun w => (hperm.map _).sum_nat
    rw [htnames.mem_iff, hunames.mem_iff, List.nil_append, List.nil_append,
      (hperm.filterMap _).mem_iff]
    simp only [hsum]
  · rw [htdeclared, hudeclared]
    exact ((hperm.filterMap _).map _).append_left _

/-- Entries of which one gives a name and two are of one family. -/
def mixedEntries : List Json :=
  [.string "https://a.example.org",
    .object [("name", .string "internal"), ("url", .string "https://c.example.org")],
    .object [("maven", .object [("url", .string "https://b.example.org")])],
    .string "mavenCentral"]

/-- Backwards, the first two of a family change their numbers, and nothing else changes. -/
theorem declareAll_perm_reverse :
    let x : RepositoriesFile := { repositories := mixedEntries }
    let y : RepositoriesFile := { repositories := mixedEntries.reverse }
    (∀ entry ∈ x.repositories, ∀ name,
      (Request.ofEntry entry).Gives (.string name) → ¬ Automatic name) ∧
    x.repositories.Perm y.repositories ∧
    (y.declareAll withoutLocal {}).1 = .ok () ∧
    (x.declareAll withoutLocal {}).2.names = ["maven", "internal", "maven2", "MavenRepo"] ∧
    ["maven", "internal", "maven2", "MavenRepo"].Perm (y.declareAll withoutLocal {}).2.names ∧
    ((x.declareAll withoutLocal {}).2.declared.map dropAutomatic).Perm
      ((y.declareAll withoutLocal {}).2.declared.map dropAutomatic) := by
  intro x y
  have hnames : ∀ entry ∈ x.repositories, ∀ name,
      (Request.ofEntry entry).Gives (.string name) → ¬ Automatic name := by
    have hgiven : ∀ entry ∈ mixedEntries, (built? withoutLocal entry).isSome ∧
        ∀ name ∈ given? withoutLocal entry, ¬ Automatic name := by decide
    intro entry hentry name hgives
    obtain ⟨hbuilt, hname⟩ := hgiven entry hentry
    obtain ⟨r, hr⟩ := Option.isSome_iff_exists.1 hbuilt
    exact hname name (given?_of_gives hr hgives)
  have hperm : x.repositories.Perm y.repositories := (List.reverse_perm _).symm
  obtain ⟨hiff, hsame⟩ := declareAll_perm steady_withoutLocal hnames hperm
  obtain ⟨hxnames, hdeclared⟩ := hsame rfl
  exact ⟨hnames, hperm, hiff.1 rfl, rfl, hxnames, hdeclared⟩

end Roster

end Depot
