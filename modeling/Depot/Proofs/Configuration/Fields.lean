import Depot.Proofs.Configuration.Map

/-!
# Fields of a configured repository

What a property map makes of a Maven or an Ivy repository, said field by field: a field is what the
key of its property stands for, and stays what it was if the key is missing. Patterns are added to
those that are there, the ones under the key in the singular first. No order of the entries is
mentioned; `MavenRepository.configure_eq_ok_iff` and its like for Ivy say that applying the entries
in the ascending order of their keys comes to just this.
-/

namespace Depot

variable {key k p q : String} {v : Json} {es rest : List (String × Json)}

/-! ### One field -/

section Sets

variable {α : Type} {Reads : Json → α → Prop} {old mid new : α}

/-- What some entries make of a field: its key stands for the new value, or is missing and the value
is the old one. -/
def Sets (es : List (String × Json)) (key : String) (Reads : Json → α → Prop) (old new : α) : Prop :=
  match es.lookup key with
  | some v => Reads v new
  | none => new = old

lemma sets_nil : Sets [] key Reads old new ↔ new = old := Iff.rfl

lemma sets_cons_self : Sets ((key, v) :: rest) key Reads old new ↔ Reads v new := by
  rw [Sets, List.lookup_cons_self]

lemma sets_cons_of_ne (h : key ≠ k) :
    Sets ((k, v) :: rest) key Reads old new ↔ Sets rest key Reads old new := by
  rw [Sets, List.lookup_cons, beq_false_of_ne h]
  rfl

@[simp] lemma sets_singleton :
    Sets [(k, v)] key Reads old new ↔ if key = k then Reads v new else new = old := by
  split_ifs with h
  · subst h
    exact sets_cons_self
  · exact sets_cons_of_ne h

lemma sets_of_forall_lt (h : ∀ e ∈ es, key < e.1) : Sets es key Reads old new ↔ new = old := by
  have hlookup : es.lookup key = none := by
    rw [List.lookup_eq_none_iff]
    intro e he
    have hne : key ≠ e.1 := by
      intro heq
      exact String.lt_irrefl _ (heq ▸ h e he)
    simpa using hne
  rw [Sets, hlookup]

/-- A field that one entry sets and then the others, which have greater keys. -/
lemma Sets.cons (hhead : Sets [(k, v)] key Reads old mid) (hrest : Sets rest key Reads mid new)
    (hk : ∀ e ∈ rest, k < e.1) : Sets ((k, v) :: rest) key Reads old new := by
  by_cases h : key = k
  · subst h
    rw [(sets_of_forall_lt hk).1 hrest, sets_cons_self]
    exact sets_cons_self.1 hhead
  · rw [sets_cons_of_ne h, ← sets_nil.1 ((sets_cons_of_ne h).1 hhead)]
    exact hrest

/-- If a value can be read in one way only, a field can be set in one way only. -/
lemma Sets.unique (hReads : ∀ v a b, Reads v a → Reads v b → a = b)
    (h : Sets es key Reads old mid) (h' : Sets es key Reads old new) : mid = new := by
  unfold Sets at h h'
  cases hlookup : es.lookup key with
  | some v =>
    rw [hlookup] at h h'
    exact hReads v _ _ h h'
  | none =>
    rw [hlookup] at h h'
    exact h.trans h'.symm

end Sets

/-! ### One field with two keys -/

section SetsInTurn

variable {α : Type} {First Second : α → Json → α → Prop} {old mid new : α}

/-- What some entries make of a field that two keys set in turn, each by its value and by what the
field was before it. -/
def SetsInTurn (es : List (String × Json)) (first second : String)
    (First Second : α → Json → α → Prop) (old new : α) : Prop :=
  ∃ mid, Sets es first (First old) old mid ∧ Sets es second (Second mid) mid new

lemma setsInTurn_nil (old : α) : SetsInTurn [] p q First Second old old :=
  ⟨old, rfl, rfl⟩

/-- A field that one entry sets and then the others, which have greater keys. Were the second key the
lesser one, it would have its turn before the first. -/
lemma SetsInTurn.cons (hpq : p < q) (hhead : SetsInTurn [(k, v)] p q First Second old mid)
    (hrest : SetsInTurn rest p q First Second mid new) (hk : ∀ e ∈ rest, k < e.1) :
    SetsInTurn ((k, v) :: rest) p q First Second old new := by
  obtain ⟨a, hfirst, hsecond⟩ := hhead
  obtain ⟨b, hfirst', hsecond'⟩ := hrest
  have hne : q ≠ p := by
    rintro rfl
    exact String.lt_irrefl _ hpq
  by_cases hp : p = k
  · subst hp
    obtain rfl : mid = a := sets_nil.1 ((sets_cons_of_ne hne).1 hsecond)
    obtain rfl : b = mid := (sets_of_forall_lt hk).1 hfirst'
    exact ⟨b, sets_cons_self.2 (sets_cons_self.1 hfirst), (sets_cons_of_ne hne).2 hsecond'⟩
  · obtain rfl : a = old := sets_nil.1 ((sets_cons_of_ne hp).1 hfirst)
    by_cases hq : q = k
    · subst hq
      have hgreater : ∀ e ∈ rest, p < e.1 := fun e he => String.lt_trans hpq (hk e he)
      obtain rfl : b = mid := (sets_of_forall_lt hgreater).1 hfirst'
      obtain rfl : new = b := (sets_of_forall_lt hk).1 hsecond'
      exact ⟨a, (sets_cons_of_ne hp).2 ((sets_of_forall_lt hgreater).2 rfl),
        sets_cons_self.2 (sets_cons_self.1 hsecond)⟩
    · obtain rfl : mid = a := sets_nil.1 ((sets_cons_of_ne hq).1 hsecond)
      exact ⟨b, (sets_cons_of_ne hp).2 hfirst', (sets_cons_of_ne hq).2 hsecond'⟩

lemma SetsInTurn.unique (hFirst : ∀ c v a b, First c v a → First c v b → a = b)
    (hSecond : ∀ c v a b, Second c v a → Second c v b → a = b)
    (h : SetsInTurn es p q First Second old mid) (h' : SetsInTurn es p q First Second old new) :
    mid = new := by
  obtain ⟨a, hfirst, hsecond⟩ := h
  obtain ⟨b, hfirst', hsecond'⟩ := h'
  obtain rfl : a = b := hfirst.unique (hFirst old) hfirst'
  exact hsecond.unique (hSecond a) hsecond'

end SetsInTurn

/-! ### How values are read -/

namespace Json

/-- The value is a string. -/
def IsString (v : Json) (s : String) : Prop :=
  v = .string s

/-- The value is a string, for a field that may be empty. -/
def Fills (v : Json) (s? : Option String) : Prop :=
  ∃ s, v = .string s ∧ s? = some s

/-- The value lists strings that are added to those that are there. -/
def Adds (old : List String) (v : Json) (new : List String) : Prop :=
  ∃ ss, v.Lists ss ∧ new = old ++ ss

/-- The value is the name of a layout. -/
def NamesLayout (v : Json) (l : IvyLayout) : Prop :=
  v = .string l.text

/-- The value is an object that gives credentials. -/
def GivesCredentials (v : Json) (c : Credentials) : Prop :=
  ∃ fields, v = .object fields ∧ (Properties.ofList fields).Gives c

lemma IsString.unique (v : Json) (s t : String) (h : v.IsString s) (h' : v.IsString t) : s = t :=
  Json.string.inj (h.symm.trans h')

lemma Fills.unique (v : Json) (s? t? : Option String) (h : v.Fills s?) (h' : v.Fills t?) :
    s? = t? := by
  obtain ⟨s, rfl, rfl⟩ := h
  obtain ⟨t, ht, rfl⟩ := h'
  rw [Json.string.inj ht]

lemma Lists.unique (v : Json) (ss ts : List String) (h : v.Lists ss) (h' : v.Lists ts) :
    ss = ts := by
  rw [← expectStrings_eq_ok_iff] at h h'
  exact Except.ok.inj (h.symm.trans h')

lemma Adds.unique (old : List String) (v : Json) (ss ts : List String) (h : Adds old v ss)
    (h' : Adds old v ts) : ss = ts := by
  obtain ⟨ss, hss, rfl⟩ := h
  obtain ⟨ts, hts, rfl⟩ := h'
  rw [Lists.unique v ss ts hss hts]

lemma NamesLayout.unique (v : Json) (l l' : IvyLayout) (h : v.NamesLayout l)
    (h' : v.NamesLayout l') : l = l' := by
  have htext : l.text = l'.text := Json.string.inj (h.symm.trans h')
  have hparse := IvyLayout.parse_eq_ok_iff.2 htext
  rw [IvyLayout.parse_eq_ok_iff.2 rfl] at hparse
  exact Except.ok.inj hparse

lemma GivesCredentials.unique (v : Json) (c d : Credentials) (h : v.GivesCredentials c)
    (h' : v.GivesCredentials d) : c = d := by
  have hc := expectCredentials_eq_ok_iff.2 h
  rw [expectCredentials_eq_ok_iff.2 h'] at hc
  exact (Except.ok.inj hc).symm

end Json

/-! ### From one entry to a map -/

/-- What one assignment makes of a repository and what the later ones make of that, taken together
for as long as the keys ascend. -/
lemma of_configureEntries {R : Type} [Configurable R] {P : R → List (String × Json) → R → Prop}
    (hnil : ∀ r, P r [] r)
    (hone : ∀ r t p v, Configurable.assign r p v = .ok t → P r [(p, v)] t)
    (hcons : ∀ r s t p v rest, P r [(p, v)] s → P s rest t → (∀ e ∈ rest, p < e.1) →
      P r ((p, v) :: rest) t)
    {r t : R} (h : configureEntries r es = (t, none)) (hes : es.Pairwise fun a b => a.1 < b.1) :
    P r es t := by
  induction es generalizing r with
  | nil =>
    cases h
    exact hnil _
  | cons e rest ih =>
    obtain ⟨p, v⟩ := e
    obtain ⟨s, hs, h⟩ := configureEntries_cons_eq_ok_iff.1 h
    obtain ⟨hp, hrest⟩ := List.pairwise_cons.1 hes
    exact hcons r s t p v rest (hone r s p v hs) (ih h hrest) hp

/-- What a configuration makes of a repository is what a description says, if it is true of the result
and of nothing else. -/
lemma configure_eq_ok_iff_of_unique {R : Type} [Configurable R] [OneKind R] {P : R → Prop} {r t : R}
    {m : Properties} (hP : ∀ {t}, configure r m = (t, none) → P t)
    (hunique : ∀ {t u}, P t → P u → t = u) :
    configure r m = (t, none) ↔ (∀ e ∈ m.entries, (OneKind.kind R).Assignable e.1 e.2) ∧ P t := by
  rw [← exists_configure_iff r]
  constructor
  · intro h
    exact ⟨⟨t, h⟩, hP h⟩
  · rintro ⟨⟨u, hu⟩, h⟩
    rw [hunique h (hP hu), hu]

/-! ### Maven repositories -/

namespace MavenRepository

variable {r s t u : MavenRepository} {m : Properties}

/-- What some entries make of a Maven repository. -/
structure Configured (r : MavenRepository) (es : List (String × Json)) (t : MavenRepository) :
    Prop where
  name : Sets es "name" Json.IsString r.name t.name
  url : Sets es "url" Json.Fills r.url t.url
  artifactUrls : Sets es "artifactUrls" Json.Lists r.artifactUrls t.artifactUrls
  credentials : Sets es "credentials" Json.GivesCredentials r.credentials t.credentials
  infrastructure : t.infrastructure = r.infrastructure

lemma Assigned.configured (h : r.Assigned p v t) : r.Configured [(p, v)] t := by
  cases h with
  | name s => constructor <;> simp [Json.IsString]
  | url s => constructor <;> simp [Json.Fills]
  | artifactUrls h => constructor <;> simp [h]
  | credentials h => constructor <;> simp [Json.GivesCredentials, h]

lemma Configured.cons (hhead : r.Configured [(p, v)] s) (hrest : s.Configured rest t)
    (hp : ∀ e ∈ rest, p < e.1) : r.Configured ((p, v) :: rest) t where
  name := hhead.name.cons hrest.name hp
  url := hhead.url.cons hrest.url hp
  artifactUrls := hhead.artifactUrls.cons hrest.artifactUrls hp
  credentials := hhead.credentials.cons hrest.credentials hp
  infrastructure := hrest.infrastructure.trans hhead.infrastructure

lemma Configured.unique (h : r.Configured es t) (h' : r.Configured es u) : t = u := by
  have hname := h.name.unique Json.IsString.unique h'.name
  have hurl := h.url.unique Json.Fills.unique h'.url
  have hurls := h.artifactUrls.unique Json.Lists.unique h'.artifactUrls
  have hcredentials := h.credentials.unique Json.GivesCredentials.unique h'.credentials
  have hinfrastructure := h.infrastructure.trans h'.infrastructure.symm
  cases t
  cases u
  simp only at hname hurl hurls hcredentials hinfrastructure
  rw [hname, hurl, hurls, hcredentials, hinfrastructure]

lemma configured_of_configure (h : configure r m = (t, none)) : r.Configured m.entries t :=
  of_configureEntries (fun _ => ⟨rfl, rfl, rfl, rfl, rfl⟩)
    (fun _ _ _ _ h => (assign_eq_ok_iff.1 h).configured)
    (fun _ _ _ _ _ _ hhead hrest hp => hhead.cons hrest hp) h m.ordered

/-- A map is applied exactly if all its entries are assignable, and then field by field. -/
theorem configure_eq_ok_iff : configure r m = (t, none) ↔
    (∀ e ∈ m.entries, Kind.maven.Assignable e.1 e.2) ∧ r.Configured m.entries t :=
  configure_eq_ok_iff_of_unique configured_of_configure Configured.unique

end MavenRepository

/-! ### Ivy repositories -/

namespace IvyRepository

variable {r s t u : IvyRepository} {m : Properties}

/-- What some entries make of an Ivy repository. -/
structure Configured (r : IvyRepository) (es : List (String × Json)) (t : IvyRepository) :
    Prop where
  name : Sets es "name" Json.IsString r.name t.name
  url : Sets es "url" Json.Fills r.url t.url
  layout : Sets es "layout" Json.NamesLayout r.layout t.layout
  artifactPatterns : SetsInTurn es "artifactPattern" "artifactPatterns" Json.Adds Json.Adds
    r.extraArtifactPatterns t.extraArtifactPatterns
  ivyPatterns : SetsInTurn es "ivyPattern" "ivyPatterns" Json.Adds Json.Adds
    r.extraIvyPatterns t.extraIvyPatterns
  credentials : Sets es "credentials" Json.GivesCredentials r.credentials t.credentials
  infrastructure : t.infrastructure = r.infrastructure

lemma Assigned.configured (h : r.Assigned p v t) : r.Configured [(p, v)] t := by
  cases h with
  | name s => constructor <;> simp [SetsInTurn, Json.IsString]
  | url s => constructor <;> simp [SetsInTurn, Json.Fills]
  | layout l => constructor <;> simp [SetsInTurn, Json.NamesLayout]
  | artifactPatterns hp h =>
    rcases hp with rfl | rfl <;> constructor <;> simp [SetsInTurn, Json.Adds, h]
  | ivyPatterns hp h =>
    rcases hp with rfl | rfl <;> constructor <;> simp [SetsInTurn, Json.Adds, h]
  | credentials h => constructor <;> simp [SetsInTurn, Json.GivesCredentials, h]

lemma Configured.cons (hhead : r.Configured [(p, v)] s) (hrest : s.Configured rest t)
    (hp : ∀ e ∈ rest, p < e.1) : r.Configured ((p, v) :: rest) t where
  name := hhead.name.cons hrest.name hp
  url := hhead.url.cons hrest.url hp
  layout := hhead.layout.cons hrest.layout hp
  artifactPatterns := hhead.artifactPatterns.cons (by decide) hrest.artifactPatterns hp
  ivyPatterns := hhead.ivyPatterns.cons (by decide) hrest.ivyPatterns hp
  credentials := hhead.credentials.cons hrest.credentials hp
  infrastructure := hrest.infrastructure.trans hhead.infrastructure

lemma Configured.unique (h : r.Configured es t) (h' : r.Configured es u) : t = u := by
  have hname := h.name.unique Json.IsString.unique h'.name
  have hurl := h.url.unique Json.Fills.unique h'.url
  have hlayout := h.layout.unique Json.NamesLayout.unique h'.layout
  have hartifacts := h.artifactPatterns.unique Json.Adds.unique Json.Adds.unique h'.artifactPatterns
  have hivy := h.ivyPatterns.unique Json.Adds.unique Json.Adds.unique h'.ivyPatterns
  have hcredentials := h.credentials.unique Json.GivesCredentials.unique h'.credentials
  have hinfrastructure := h.infrastructure.trans h'.infrastructure.symm
  cases t
  cases u
  simp only at hname hurl hlayout hartifacts hivy hcredentials hinfrastructure
  rw [hname, hurl, hlayout, hartifacts, hivy, hcredentials, hinfrastructure]

lemma configured_of_configure (h : configure r m = (t, none)) : r.Configured m.entries t :=
  of_configureEntries
    (fun _ => ⟨rfl, rfl, rfl, setsInTurn_nil _, setsInTurn_nil _, rfl, rfl⟩)
    (fun _ _ _ _ h => (assign_eq_ok_iff.1 h).configured)
    (fun _ _ _ _ _ _ hhead hrest hp => hhead.cons hrest hp) h m.ordered

@[inherit_doc MavenRepository.configure_eq_ok_iff]
theorem configure_eq_ok_iff : configure r m = (t, none) ↔
    (∀ e ∈ m.entries, Kind.ivy.Assignable e.1 e.2) ∧ r.Configured m.entries t :=
  configure_eq_ok_iff_of_unique configured_of_configure Configured.unique

end IvyRepository

end Depot
