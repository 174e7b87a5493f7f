import Depot.Configure
import Depot.Proofs.Configuration.Properties
import Depot.Proofs.Result

/-!
# Values of properties

Which values a property may have, each said without the reader for it: a string, strings, the name
of a layout, or credentials. Credentials are given by their two keys alone, and a key that is
missing gives what null gives.
-/

namespace Depot

/-! ### Strings -/

namespace Json

lemma expectString_eq_ok_iff {v : Json} {s : String} : v.expectString = .ok s ↔ v = .string s := by
  cases v <;> simp [expectString]

lemma expectItems_eq_ok_iff {items : List Json} {ss : List String} :
    expectItems items = .ok ss ↔ items = ss.map .string := by
  induction items generalizing ss with
  | nil => cases ss <;> simp [expectItems]
  | cons v rest ih =>
    simp only [expectItems, bind_eq_ok, expectString_eq_ok_iff, ih]
    constructor
    · rintro ⟨s, rfl, ss, rfl, h⟩
      cases h
      rfl
    · intro h
      cases ss with
      | nil => cases h
      | cons s ss =>
        obtain ⟨rfl, rfl⟩ := List.cons.inj h
        exact ⟨s, rfl, ss, rfl, rfl⟩

/-- The strings that a value lists; a string by itself is a list of one. -/
inductive Lists : Json → List String → Prop where
  | one (s : String) : Lists (.string s) [s]
  | many (ss : List String) : Lists (ofStrings ss) ss

lemma expectStrings_eq_ok_iff {v : Json} {ss : List String} :
    v.expectStrings = .ok ss ↔ v.Lists ss := by
  constructor
  · intro h
    cases v with
    | string s =>
      cases h
      exact .one s
    | array items =>
      rw [expectItems_eq_ok_iff.1 h]
      exact .many ss
    | null | bool | number | object => cases h
  · rintro (s | ss)
    · rfl
    · exact expectItems_eq_ok_iff.2 rfl

/-- A value made from a string, if there is one. -/
lemma bind_expectString_eq_ok_iff {α : Type} {v : Json} {f : String → α} {t : α} :
    (v.expectString >>= fun s => pure (f s)) = .ok t ↔ ∃ s, v = .string s ∧ f s = t := by
  simp only [bind_eq_ok, expectString_eq_ok_iff, pure, Except.pure, Except.ok.injEq]

/-- A value made from strings, if there are some. -/
lemma bind_expectStrings_eq_ok_iff {α : Type} {v : Json} {f : List String → α} {t : α} :
    (v.expectStrings >>= fun ss => pure (f ss)) = .ok t ↔ ∃ ss, v.Lists ss ∧ f ss = t := by
  simp only [bind_eq_ok, expectStrings_eq_ok_iff, pure, Except.pure, Except.ok.injEq]

end Json

/-! ### Layouts -/

namespace IvyLayout

lemma parse_eq_ok_iff {s : String} {l : IvyLayout} : parse s = .ok l ↔ s = l.text := by
  constructor
  · intro h
    rw [parse] at h
    split at h
    · next found hfound =>
      cases h
      have htext := List.find?_some hfound
      exact (beq_iff_eq.1 htext).symm
    · cases h
  · rintro rfl
    rw [parse, ofText?_text]

end IvyLayout

/-! ### Credentials -/

namespace Credentials

lemma partOfJson_eq_ok_iff {v : Json} {part : Option String} :
    partOfJson v = .ok part ↔ v = Json.ofString? part := by
  cases v <;> cases part <;> simp [partOfJson, Json.ofString?]

/-- What some fields make of a part: the value of its key, or what it was. -/
def Given (fields : List (String × Json)) (key : String) (old new : Option String) : Prop :=
  match fields.lookup key with
  | some v => v = Json.ofString? new
  | none => new = old

lemma given_cons_self {key : String} {v : Json} {rest : List (String × Json)}
    {old new : Option String} : Given ((key, v) :: rest) key old new ↔ v = Json.ofString? new := by
  simp [Given]

lemma given_cons_of_ne {key k : String} (h : key ≠ k) {v : Json} {rest : List (String × Json)}
    {old new : Option String} :
    Given ((k, v) :: rest) key old new ↔ Given rest key old new := by
  rw [Given, List.lookup_cons, beq_false_of_ne h]
  rfl

lemma given_of_notMem {key : String} {fields : List (String × Json)}
    (h : key ∉ fields.map Prod.fst) {old new : Option String} :
    Given fields key old new ↔ new = old := by
  have hlookup : fields.lookup key = none := by
    rw [List.lookup_eq_none_iff]
    intro e he
    have hne : key ≠ e.1 := fun heq => h (List.mem_map.2 ⟨e, he, heq.symm⟩)
    simpa using hne
  rw [Given, hlookup]

/-- Fields with distinct keys are credentials if there are no other keys than the two, each with a
string or null. -/
lemma ofFields_eq_ok_iff {fields : List (String × Json)} (h : (fields.map Prod.fst).Nodup)
    {c d : Credentials} : ofFields c fields = .ok d ↔
      (∀ e ∈ fields, e.1 = "username" ∨ e.1 = "password") ∧
      Given fields "username" c.username d.username ∧
      Given fields "password" c.password d.password := by
  induction fields generalizing c with
  | nil =>
    obtain ⟨u, p⟩ := c
    obtain ⟨u', p'⟩ := d
    simp [ofFields, Given, eq_comm]
  | cons e rest ih =>
    obtain ⟨k, v⟩ := e
    obtain ⟨hk, hrest⟩ := List.nodup_cons.1 h
    by_cases hu : k = "username"
    · subst hu
      simp only [ofFields, if_true, bind_eq_ok, partOfJson_eq_ok_iff, ih hrest,
        List.forall_mem_cons, given_cons_self,
        given_cons_of_ne (show "password" ≠ "username" by decide), given_of_notMem hk]
      constructor
      · rintro ⟨u, rfl, hkeys, hu, hp⟩
        exact ⟨⟨.inl trivial, hkeys⟩, by rw [hu], hp⟩
      · rintro ⟨⟨-, hkeys⟩, rfl, hp⟩
        exact ⟨_, rfl, hkeys, rfl, hp⟩
    · by_cases hp : k = "password"
      · subst hp
        simp only [ofFields, if_neg hu, if_true, bind_eq_ok, partOfJson_eq_ok_iff, ih hrest,
          List.forall_mem_cons, given_cons_self,
          given_cons_of_ne (show "username" ≠ "password" by decide), given_of_notMem hk]
        constructor
        · rintro ⟨p, rfl, hkeys, hu, hp⟩
          exact ⟨⟨.inr trivial, hkeys⟩, hu, by rw [hp]⟩
        · rintro ⟨⟨-, hkeys⟩, hu, rfl⟩
          exact ⟨_, rfl, hkeys, hu, rfl⟩
      · simp [ofFields, hu, hp]

end Credentials

/-- The credentials that an object gives: it has no other keys than the two, and what stands at
each, or null, gives the part. -/
structure Properties.Gives (m : Properties) (c : Credentials) : Prop where
  keys : ∀ e ∈ m.entries, e.1 = "username" ∨ e.1 = "password"
  username : (m.get? "username").getD .null = Json.ofString? c.username
  password : (m.get? "password").getD .null = Json.ofString? c.password

lemma Credentials.given_none_iff {m : Properties} {key : String} {new : Option String} :
    Given m.entries key none new ↔ (m.get? key).getD .null = Json.ofString? new := by
  rw [Given, Properties.get?]
  cases m.entries.lookup key with
  | none => cases new <;> simp [Json.ofString?]
  | some v => rfl

lemma Json.expectCredentials_eq_ok_iff {v : Json} {c : Credentials} :
    v.expectCredentials = .ok c ↔
      ∃ fields, v = .object fields ∧ (Properties.ofList fields).Gives c := by
  cases v with
  | object fields =>
    simp only [expectCredentials, mapError_eq_ok, Credentials.ofJson,
      Credentials.ofFields_eq_ok_iff (Properties.nodup_keys _), Credentials.empty,
      Credentials.given_none_iff, Json.object.injEq]
    constructor
    · rintro ⟨hkeys, hu, hp⟩
      exact ⟨fields, rfl, hkeys, hu, hp⟩
    · rintro ⟨_, rfl, hkeys, hu, hp⟩
      exact ⟨hkeys, hu, hp⟩
  | null | bool | number | string | array => simp [expectCredentials]

/-- A value made from credentials, if there are some. -/
lemma Json.bind_expectCredentials_eq_ok_iff {α : Type} {v : Json} {f : Credentials → α} {t : α} :
    (v.expectCredentials >>= fun c => pure (f c)) = .ok t ↔
      ∃ fields c, v = .object fields ∧ (Properties.ofList fields).Gives c ∧ f c = t := by
  simp only [bind_eq_ok, expectCredentials_eq_ok_iff, pure, Except.pure, Except.ok.injEq]
  constructor
  · rintro ⟨c, ⟨fields, hv, h⟩, ht⟩
    exact ⟨fields, c, hv, h, ht⟩
  · rintro ⟨fields, c, hv, h, ht⟩
    exact ⟨c, ⟨fields, hv, h⟩, ht⟩

end Depot
