import Depot.Proofs.Redaction.Mask
import Depot.Proofs.Redaction.Roster

/-!
# Passwords in error messages

Entries that differ in passwords only are declared alike. Assignment by assignment they are accepted
together or refused together, and the messages differ at most in a value that was refused and holds a
password (`Roster.declare_shows_refused_only`). A password in its place is not shown, unless it is a
truth value or a number. Elsewhere it may be: an array in place of an entry is quoted with all that
is in it (`Roster.declare_shows_password_in_array`).
-/

namespace Depot

open Json (Exposure Worded maskField)

/-- Two failures that show no more than this of two values. -/
def Failure.Alike (s : Exposure) (e e' : Failure) : Prop :=
  Worded s e.message e'.message

lemma Failure.Alike.refl {s : Exposure} (e : Failure) : Alike s e e :=
  .same _

/-! ### Assignments -/

section Assignments

variable {p : String} {v v' : Json} {α : Type} {R : α → α → Prop}

/-- A value made from a string at a property other than the credentials. -/
lemma bind_expectString_related (hp : p ≠ "credentials")
    (h : maskField false p v = maskField false p v') {f g : String → Except Reason α}
    (hfg : ∀ t, Related (Reason.Alike (Json.exposure p v v')) R (f t) (g t)) :
    Related (Reason.Alike (Json.exposure p v v')) R (v.expectString >>= f)
      (v'.expectString >>= g) := by
  rw [Json.maskField_of_ne hp, Json.maskField_of_ne hp] at h
  refine (Reason.expectString_related h (Json.Quoted.whole hp v v')).bind ?_
  rintro t _ rfl
  exact hfg t

/-- A value made from strings at a property other than the credentials. -/
lemma bind_expectStrings_related (hp : p ≠ "credentials")
    (h : maskField false p v = maskField false p v') {f g : List String → Except Reason α}
    (hfg : ∀ ts, Related (Reason.Alike (Json.exposure p v v')) R (f ts) (g ts)) :
    Related (Reason.Alike (Json.exposure p v v')) R (v.expectStrings >>= f)
      (v'.expectStrings >>= g) := by
  rw [Json.maskField_of_ne hp, Json.maskField_of_ne hp] at h
  refine (Reason.expectStrings_related hp h).bind ?_
  rintro ts _ rfl
  exact hfg ts

lemma MavenRepository.assign_related {r r' : MavenRepository} (hr : r.redact = r'.redact)
    (h : maskField false p v = maskField false p v') :
    Related (Reason.Alike (Json.exposure p v v')) (fun t t' => t.redact = t'.redact)
      (r.assign p v) (r'.assign p v') := by
  unfold assign
  split
  · refine bind_expectString_related (by decide) h fun s => .ok ?_
    exact congrArg (fun r : MavenRepository => { r with name := s }) hr
  · refine bind_expectString_related (by decide) h fun s => .ok ?_
    exact congrArg (fun r : MavenRepository => { r with url := some s }) hr
  · refine bind_expectStrings_related (by decide) h fun ss => .ok ?_
    exact congrArg (fun r : MavenRepository => { r with artifactUrls := ss }) hr
  · refine (Reason.expectCredentials_related h).bind fun c c' hc => .ok ?_
    change ({ r.redact with credentials := c.redact } : MavenRepository) =
      { r'.redact with credentials := c'.redact }
    rw [hr, hc]
  · exact .error (.refl _)

lemma IvyRepository.assign_related {r r' : IvyRepository} (hr : r.redact = r'.redact)
    (h : maskField false p v = maskField false p v') :
    Related (Reason.Alike (Json.exposure p v v')) (fun t t' => t.redact = t'.redact)
      (r.assign p v) (r'.assign p v') := by
  have hartifact (ss : List String) := congrArg (fun r : IvyRepository =>
    { r with extraArtifactPatterns := r.extraArtifactPatterns ++ ss }) hr
  have hivy (ss : List String) := congrArg (fun r : IvyRepository =>
    { r with extraIvyPatterns := r.extraIvyPatterns ++ ss }) hr
  unfold assign
  split
  · refine bind_expectString_related (by decide) h fun s => .ok ?_
    exact congrArg (fun r : IvyRepository => { r with name := s }) hr
  · refine bind_expectString_related (by decide) h fun s => .ok ?_
    exact congrArg (fun r : IvyRepository => { r with url := some s }) hr
  · refine bind_expectString_related (by decide) h fun s => ?_
    cases IvyLayout.parse s with
    | error reason => exact .error (.refl reason)
    | ok l => exact .ok (congrArg (fun r : IvyRepository => { r with layout := l }) hr)
  · exact bind_expectStrings_related (by decide) h fun ss => .ok (hartifact ss)
  · exact bind_expectStrings_related (by decide) h fun ss => .ok (hartifact ss)
  · exact bind_expectStrings_related (by decide) h fun ss => .ok (hivy ss)
  · exact bind_expectStrings_related (by decide) h fun ss => .ok (hivy ss)
  · refine (Reason.expectCredentials_related h).bind fun c c' hc => .ok ?_
    change ({ r.redact with credentials := c.redact } : IvyRepository) =
      { r'.redact with credentials := c'.redact }
    rw [hr, hc]
  · exact .error (.refl _)

lemma FlatDirRepository.assign_related (r : FlatDirRepository)
    (h : maskField false p v = maskField false p v') :
    Related (Reason.Alike (Json.exposure p v v')) Eq (r.assign p v) (r.assign p v') := by
  unfold assign
  split
  · exact bind_expectString_related (by decide) h fun _ => .ok rfl
  · exact bind_expectStrings_related (by decide) h fun _ => .ok rfl
  · exact bind_expectStrings_related (by decide) h fun _ => .ok rfl
  · exact .error (.refl _)

end Assignments

namespace Repository

variable {r r' : Repository} {p : String} {v v' : Json} {s : Exposure}
  {es es' : List (String × Json)} {m m' : Properties}

lemma displayName_redact (r : Repository) : r.redact.displayName = r.displayName := by
  cases r <;> rfl

lemma name_eq_of_redact_eq (hr : r.redact = r'.redact) : r.name = r'.name := by
  rw [← name_redact, hr, name_redact]

lemma assign_related (hr : r.redact = r'.redact)
    (h : maskField false p v = maskField false p v') :
    Related (Reason.Alike (Json.exposure p v v')) (fun t t' => t.redact = t'.redact)
      (r.assign p v) (r'.assign p v') := by
  cases r with
  | maven r =>
    cases r' with
    | maven r' =>
      exact (MavenRepository.assign_related (maven.inj hr) h).map fun _ _ ht => congrArg maven ht
    | ivy | flatDir | custom => cases hr
  | ivy r =>
    cases r' with
    | ivy r' =>
      exact (IvyRepository.assign_related (ivy.inj hr) h).map fun _ _ ht => congrArg ivy ht
    | maven | flatDir | custom => cases hr
  | flatDir r =>
    cases r' with
    | flatDir r' =>
      obtain rfl : r = r' := flatDir.inj hr
      exact (r.assign_related h).map fun _ _ ht => congrArg flatDir ht
    | maven | ivy | custom => cases hr
  | custom r =>
    cases r' with
    | custom r' => exact .error (.refl _)
    | maven | ivy | flatDir => cases hr

lemma setProperty_related (hr : r.redact = r'.redact)
    (h : maskField false p v = maskField false p v') :
    Related (Failure.Alike (Json.exposure p v v')) (fun t t' => t.redact = t'.redact)
      (setProperty r p v) (setProperty r' p v') := by
  have hdisplay : Configurable.displayName r = Configurable.displayName r' := by
    rw [show Configurable.displayName r = r.displayName from rfl, ← displayName_redact, hr,
      displayName_redact]
    rfl
  rw [setProperty, setProperty, hdisplay]
  exact (assign_related hr h).mapError fun _ _ hreason => hreason.prepend _

/-- Entries that differ in passwords only are assigned alike, and the first that is refused is refused
alike. -/
lemma configureEntries_related (hr : r.redact = r'.redact)
    (hes : List.Forall₂
      (fun e e' => (e.1, maskField false e.1 e.2) = (e'.1, maskField false e'.1 e'.2)) es es')
    (hs : s.Covers es es') :
    (configureEntries r es).1.redact = (configureEntries r' es').1.redact ∧
      Option.Rel (Failure.Alike s) (configureEntries r es).2 (configureEntries r' es').2 := by
  induction hes generalizing r r' with
  | nil => exact ⟨hr, .none⟩
  | @cons e e' rest rest' he _ ih =>
    obtain ⟨p, v⟩ := e
    obtain ⟨p', v'⟩ := e'
    obtain ⟨rfl, hv⟩ := Prod.mk.inj he
    have hset := setProperty_related hr hv
    obtain ⟨hquoted, hdescribed⟩ := hs p v v' List.mem_cons_self List.mem_cons_self
    rw [configureEntries, configureEntries]
    generalize setProperty r p v = x at hset
    generalize setProperty r' p v' = y at hset
    cases hset with
    | ok ht =>
      exact ih ht fun q w w' hw hw' =>
        hs q w w' (List.mem_cons_of_mem _ hw) (List.mem_cons_of_mem _ hw')
    | error he => exact ⟨hr, .some (he.mono hquoted hdescribed)⟩

lemma configured_related (hr : r.redact = r'.redact)
    (hm : m.mapValues (maskField false) = m'.mapValues (maskField false))
    (hs : s.Covers m.entries m'.entries) :
    Related (Failure.Alike s) (fun t t' => t.redact = t'.redact) (configured r m)
      (configured r' m') := by
  obtain ⟨ht, he⟩ := configureEntries_related hr
    (forall₂_of_map_eq (congrArg Properties.entries hm)) hs
  rw [configured, configured, configure, configure]
  generalize configureEntries r m.entries = x at ht he
  generalize configureEntries r' m'.entries = y at ht he
  obtain ⟨t, e⟩ := x
  obtain ⟨t', e'⟩ := y
  cases he with
  | none => exact .ok ht
  | some he => exact .error he

end Repository

namespace Roster

variable {f : Factory} {s : Exposure} {used : Nat}

/-! ### Requests -/

namespace Shorthand

lemma build_related (w : Shorthand) (f : Factory) {m m' : Properties}
    (hm : m.mapValues (maskField false) = m'.mapValues (maskField false))
    (hs : s.Covers m.entries m'.entries) (used : Nat) :
    Related (Failure.Alike s) (fun r r' => r.redact = r'.redact) (w.build f m used).1
      (w.build f m' used).1 := by
  have hblank : Related (Failure.Alike s) Eq (w.blank f used) (w.blank f used) :=
    .refl .refl (fun _ => rfl) _
  refine hblank.bind ?_
  rintro blank _ rfl
  exact Repository.configured_related rfl hm hs

end Shorthand

namespace Request

/-- The values that two entries give to a property, where both come down to the same shorthand. -/
def Assigns (entry entry' : Json) (p : String) (v v' : Json) : Prop :=
  ∃ w m m', ofEntry entry = .build w m ∧ ofEntry entry' = .build w m' ∧
    m.get? p = some v ∧ m'.get? p = some v'

/-- What may be quoted when an entry and its counterpart are refused: arrays in place of the entries,
arrays in place of the properties behind a shorthand, and what may be quoted of the values of a
property. -/
inductive Quoted : Json → Json → Json → Json → Prop where
  | entry (items items' : List Json) :
      Quoted (.array items) (.array items') (.array items) (.array items')
  | config {entry entry' : Json} {w : Shorthand} {items items' : List Json}
      (h : shorthand? entry = some (w, .array items))
      (h' : shorthand? entry' = some (w, .array items')) :
      Quoted entry entry' (.array items) (.array items')
  | property {entry entry' v v' u u' : Json} {p : String} (h : Assigns entry entry' p v v')
      (hu : Json.Quoted p v v' u u') : Quoted entry entry' u u'

/-- What the refusals of an entry and of its counterpart may show of them. -/
def exposure (entry entry' : Json) : Exposure where
  quoted := Quoted entry entry'
  described u u' := ∃ p v v', Assigns entry entry' p v v' ∧ Json.Described p v v' u u'

/-- Requests that differ in passwords only. -/
inductive Alike (s : Exposure) : Request → Request → Prop where
  | same (q : Request) : Alike s q q
  | build (w : Shorthand) {m m' : Properties}
      (h : m.mapValues (maskField false) = m'.mapValues (maskField false)) :
      Alike s (.build w m) (.build w m')
  | refused {e e' : Failure} (h : e.Alike s e') : Alike s (.refused e) (.refused e')

lemma ofShorthand_alike (w : Shorthand) {config config' : Json} (h : config.mask = config'.mask)
    (hs : ∀ items items', config = .array items → config' = .array items' →
      s.quoted config config') : Alike s (ofShorthand w config) (ofShorthand w config') := by
  cases Json.alike_of_maskIn_eq h with
  | same => exact .same _
  | array =>
    have hquoting := Worded.quoting ("'" ++ w.text ++ "' expects a map of properties, got ")
      (hs _ _ rfl rfl) h
    exact .refused (hquoting.prepend "Invalid repository configuration: ")
  | object hfields => exact .build w hfields

theorem ofEntry_alike {entry entry' : Json} (h : entry.mask = entry'.mask) :
    Alike (exposure entry entry') (ofEntry entry) (ofEntry entry') := by
  cases Json.alike_of_maskIn_eq h with
  | same => exact .same _
  | array => exact .refused (.quoting "Cannot create a repository from " (.entry _ _) h)
  | @object fields fields' hfields =>
    have hvalue : Alike (exposure (.object fields) (.object fields')) (ofValue (.object fields))
      (ofValue (.object fields')) := .build .maven hfields
    have hall := forall₂_of_map_eq (congrArg Properties.entries hfields)
    simp only [ofEntry]
    generalize hes : (Properties.ofList fields).entries = es at hall ⊢
    generalize hes' : (Properties.ofList fields').entries = es' at hall ⊢
    -- A shorthand stands alone in its object, and is the same one in both.
    cases hall with
    | nil => exact hvalue
    | @cons e e' _ _ he hrest =>
      obtain ⟨key, config⟩ := e
      obtain ⟨key', config'⟩ := e'
      obtain ⟨rfl, hconfig⟩ := Prod.mk.inj he
      cases hrest with
      | cons => exact hvalue
      | nil =>
        dsimp only
        cases hw : Shorthand.ofText? key with
        | none => exact hvalue
        | some w =>
          have hne := ne_credentials_of_ofText? hw
          rw [Json.maskField_of_ne hne, Json.maskField_of_ne hne] at hconfig
          refine ofShorthand_alike w hconfig ?_
          rintro items items' rfl rfl
          exact .config (w := w) (by simp [shorthand?, hes, hw]) (by simp [shorthand?, hes', hw])

end Request

/-! ### Declaring -/

lemma enter_related {r r' : Repository} (hr : r.redact = r'.redact) (st : Roster)
    (explicit : Bool) : Related (Failure.Alike s) (fun t t' => t.redact = t'.redact)
      (st.enter r explicit).1 (st.enter r' explicit).1 := by
  have hname := Repository.name_eq_of_redact_eq hr
  have hrenamed : (r.withName (st.freeName r.name)).redact =
      (r'.withName (st.freeName r'.name)).redact := by
    rw [← Repository.withName_redact, ← Repository.withName_redact, hr, hname]
  unfold enter
  dsimp only
  rw [hname]
  rw [hname] at hrenamed
  split_ifs
  · exact .ok hr
  · exact .error (.same _)
  · exact .ok hrenamed

lemma enterResult_related {x y : Except Failure Repository}
    (h : Related (Failure.Alike s) (fun r r' => r.redact = r'.redact) x y) (st : Roster)
    (explicit : Bool) (used : Nat) :
    Related (Failure.Alike s) (fun t t' => t.redact = t'.redact)
      (st.enterResult explicit (x, used)).1 (st.enterResult explicit (y, used)).1 := by
  cases h with
  | ok hr => exact enter_related hr { st with used } explicit
  | error he => exact .error he

lemma Request.Alike.run {q q' : Request} (h : Alike s q q')
    (hs : ∀ w m m', q = .build w m → q' = .build w m' → s.Covers m.entries m'.entries)
    (f : Factory) (st : Roster) :
    Related (Failure.Alike s) (fun t t' => t.redact = t'.redact) (q.run f st).1
      (q'.run f st).1 := by
  cases h with
  | same q =>
    exact Related.refl (R := fun t t' : Repository => t.redact = t'.redact) Failure.Alike.refl
      (fun _ => rfl) _
  | @build w m m' hm =>
    have hexplicit : m.contains "name" = m'.contains "name" := by
      rw [← Properties.contains_mapValues, hm, Properties.contains_mapValues]
    rw [Request.run, Request.run, explicit, explicit, hexplicit]
    exact enterResult_related (w.build_related f hm (hs w m m' rfl rfl) st.used) st _ _
  | refused he => exact .error he

lemma declare_related (f : Factory) (st : Roster) {entry entry' : Json}
    (h : entry.mask = entry'.mask) :
    Related (Failure.Alike (Request.exposure entry entry')) (fun r r' => r.redact = r'.redact)
      (st.declare f entry).1 (st.declare f entry').1 := by
  rw [declare_eq, declare_eq]
  refine (Request.ofEntry_alike h).run ?_ f st
  intro w m m' hq hq' p v v' hv hv'
  have hassigns : Request.Assigns entry entry' p v v' :=
    ⟨w, m, m', hq, hq', Properties.get?_eq_some_iff.2 hv, Properties.get?_eq_some_iff.2 hv'⟩
  exact ⟨fun u u' hu => .property hassigns hu, fun u u' hu => ⟨p, v, v', hassigns, hu⟩⟩

/-! ### Where passwords belong -/

/-- A shorthand is declared by what stands behind it. -/
lemma Request.ofEntry_of_shorthand? {entry config : Json} {w : Shorthand}
    (h : shorthand? entry = some (w, config)) : ofEntry entry = ofShorthand w config := by
  unfold shorthand? at h
  split at h
  · cases h
    rfl
  · cases h
    rfl
  · next fields =>
    split at h
    · next key config' hentries =>
      obtain ⟨w', hw, heq⟩ := Option.map_eq_some_iff.1 h
      cases heq
      simp only [ofEntry, hentries, hw]
    · cases h
  · cases h

/-- Two property maps that differ, if at all, in the password of their credentials only, which is
neither a truth value nor a number. -/
structure DifferInPassword (m m' : Properties) : Prop where
  other : ∀ p, p ≠ "credentials" → m.get? p = m'.get? p
  credentials : ∀ v v', m.get? "credentials" = some v → m'.get? "credentials" = some v' →
    v = v' ∨ ∃ fields fields', v = .object fields ∧ v' = .object fields' ∧
      ∀ u, (Properties.ofList fields).get? "password" = some u → u.isScalar = false

lemma DifferInPassword.eq_of_quoted {m m' : Properties} (h : DifferInPassword m m') {p : String}
    {v v' u u' : Json} (hv : m.get? p = some v) (hv' : m'.get? p = some v')
    (hu : Json.Quoted p v v' u u') : u = u' := by
  cases hu with
  | whole hp =>
    rw [h.other p hp, hv'] at hv
    exact (Option.some.inj hv).symm
  | item hp hmem =>
    rw [h.other p hp, hv'] at hv
    cases hv
    exact List.forall₂_zip (List.forall₂_same.2 fun _ _ => rfl) hmem
  | array hp =>
    subst hp
    rcases h.credentials _ _ hv hv' with heq | ⟨_, _, heq, -⟩
    · exact heq
    · cases heq

lemma DifferInPassword.eq_of_described {m m' : Properties} (h : DifferInPassword m m') {p : String}
    {v v' u u' : Json} (hv : m.get? p = some v) (hv' : m'.get? p = some v')
    (hu : Json.Described p v v' u u') : u = u' := by
  cases hu with
  | password hu hu' hscalar =>
    rcases h.credentials _ _ hv hv' with heq | ⟨_, _, heq, -, hnot⟩
    · cases heq
      exact Option.some.inj (hu.symm.trans hu')
    · cases heq
      rw [hnot _ hu] at hscalar
      cases hscalar

/-- Where passwords belong, nothing that may be shown differs. -/
lemma DifferInPassword.message_eq {entry entry' : Json} {w : Shorthand} {m m' : Properties}
    (h : DifferInPassword m m') (hq : Request.ofEntry entry = .build w m)
    (hq' : Request.ofEntry entry' = .build w m') {a b : String}
    (hab : Worded (Request.exposure entry entry') a b) : a = b := by
  have hassigned {p : String} {v v' : Json} (hassigns : Request.Assigns entry entry' p v v') :
      m.get? p = some v ∧ m'.get? p = some v' := by
    obtain ⟨w', n, n', hn, hn', hv, hv'⟩ := hassigns
    rw [hq] at hn
    rw [hq'] at hn'
    cases hn
    cases hn'
    exact ⟨hv, hv'⟩
  refine hab.eq ?_ ?_
  · intro u u' hu
    cases hu with
    | entry => cases hq
    | config hconfig =>
      rw [Request.ofEntry_of_shorthand? hconfig] at hq
      cases hq
    | property hassigns hu =>
      obtain ⟨hv, hv'⟩ := hassigned hassigns
      exact h.eq_of_quoted hv hv' hu
  · rintro u u' ⟨p, v, v', hassigns, hu⟩
    obtain ⟨hv, hv'⟩ := hassigned hassigns
    exact h.eq_of_described hv hv' hu

/-- Two entries that differ in passwords only, each of the type of its counterpart. Both are declared
or neither is. If neither is, their messages are the same, or the same but for one refused value
that both show at the same place: quoted, where it is an array in place of the entry, of the
properties behind a shorthand or of the credentials, or the value of another property or an item of
it; or described, where it is a password that is a truth value or a number. If the entries differ in
the password of the credentials of their properties only, and that is neither, then their messages
are the same. -/
theorem declare_shows_refused_only (f : Factory) (st : Roster) {entry entry' : Json}
    (h : entry.mask = entry'.mask) :
    ((∃ r, (st.declare f entry).1 = .ok r) ↔ ∃ r, (st.declare f entry').1 = .ok r) ∧
    ∀ e e', (st.declare f entry).1 = .error e → (st.declare f entry').1 = .error e' →
      Worded (Request.exposure entry entry') e.message e'.message ∧
      ∀ w m m', Request.ofEntry entry = .build w m → Request.ofEntry entry' = .build w m' →
        DifferInPassword m m' → e.message = e'.message := by
  have hrelated := declare_related f st h
  generalize (st.declare f entry).1 = x at hrelated ⊢
  generalize (st.declare f entry').1 = y at hrelated ⊢
  cases hrelated with
  | ok hr => exact ⟨⟨fun _ => ⟨_, rfl⟩, fun _ => ⟨_, rfl⟩⟩, nofun⟩
  | error he =>
    refine ⟨⟨nofun, nofun⟩, ?_⟩
    rintro _ _ ⟨⟩ ⟨⟩
    exact ⟨he, fun w m m' hq hq' hm => hm.message_eq hq hq' he⟩

/-- A password in its place is not shown where the key behind it is refused. -/
theorem declare_shows_refused_only_key :
    let f : Factory := ⟨fun _ => .error "no home directory", ⟨"/"⟩, fun _ => .empty, .numbered 0⟩
    let credentials (password : String) : Json :=
      .object [("password", .string password), ("realm", .string "r")]
    let entry (password : String) : Json :=
      .object [("maven", .object [("credentials", credentials password)])]
    (entry "one").mask = (entry "two").mask ∧
    ∃ e e', (declare f (entry "one") {}).1 = .error e ∧ (declare f (entry "two") {}).1 = .error e' ∧
      e.message = e'.message := by
  intro f credentials entry
  have hmask : (entry "one").mask = (entry "two").mask := by decide
  obtain ⟨-, hmessages⟩ := declare_shows_refused_only f {} hmask
  refine ⟨hmask, _, _, rfl, rfl, ?_⟩
  let m (password : String) := Properties.ofList [("credentials", credentials password)]
  have hdiffer : DifferInPassword (m "one") (m "two") := by
    constructor
    · intro p hp
      simp [m, Properties.ofList, Properties.insert, Properties.setField, Properties.empty,
        Properties.get?, List.lookup_cons, beq_false_of_ne hp]
    · intro v v' hv hv'
      refine .inr ⟨_, _, (Option.some.inj hv).symm, (Option.some.inj hv').symm, ?_⟩
      intro u hu
      cases Option.some.inj hu
      rfl
  exact (hmessages _ _ rfl rfl).2 .maven (m "one") (m "two") rfl rfl hdiffer

/-- An array in place of an entry is quoted, with the password in it. -/
theorem declare_shows_password_in_array :
    let f : Factory := ⟨fun _ => .error "no home directory", ⟨"/"⟩, fun _ => .empty, .numbered 0⟩
    let entry (password : String) : Json :=
      .array [.object [("credentials", .object [("password", .string password)])]]
    (entry "one").mask = (entry "two").mask ∧
    ∃ e e', (declare f (entry "one") {}).1 = .error e ∧ (declare f (entry "two") {}).1 = .error e' ∧
      e.message ≠ e'.message := by
  intro f entry
  refine ⟨by decide, _, _, rfl, rfl, ?_⟩
  decide

end Roster

end Depot
