import Depot.Proofs.Redaction.Value

/-!
# Values that differ in passwords

Masking blanks out every password: whatever stands at the key `password` of a map at the key
`credentials`, however deep, gives way to one fixed value of its type. Two values with the same mask
differ in passwords only, and each password has the type of its counterpart (`Json.Alike`).

What refuses such values says the same about both, unless it quotes a value that holds a password
(`Json.Worded`).
-/

namespace Depot

/-- Lists with the same image correspond item by item. -/
lemma forall₂_of_map_eq {α β : Type} {g : α → β} {xs ys : List α} (h : xs.map g = ys.map g) :
    List.Forall₂ (fun x y => g x = g y) xs ys := by
  rw [← List.forall₂_eq_eq_eq] at h
  simpa only [List.forall₂_map_left_iff, List.forall₂_map_right_iff] using h

namespace Json

/-- A value of the same type that tells nothing else. -/
def blank : Json → Json
  | .null => .null
  | .bool _ => .bool false
  | .number _ => .number (.integer ⟨0, by decide⟩)
  | .string _ => .string ""
  | .array _ => .array []
  | .object _ => .object []

mutual

/-- Masks a value; `inside` tells whether it stands at the key `credentials`. -/
def maskIn (inside : Bool) : Json → Json
  | .array items => .array (maskItems items)
  | .object fields => .object (maskFields inside fields)
  | .null => .null
  | .bool b => .bool b
  | .number n => .number n
  | .string s => .string s

/-- Masks the items of an array. -/
def maskItems : List Json → List Json
  | [] => []
  | v :: rest => maskIn false v :: maskItems rest

/-- Masks the fields of an object; `inside` tells whether it stands at the key `credentials`. -/
def maskFields (inside : Bool) : List (String × Json) → List (String × Json)
  | [] => []
  | (key, v) :: rest =>
    (key, if inside && key == "password" then v.blank else maskIn (key == "credentials") v)
      :: maskFields inside rest

end

/-- A value with every password blanked out. -/
def mask (v : Json) : Json :=
  v.maskIn false

/-- What stands at a key, with every password blanked out. -/
def maskField (inside : Bool) (key : String) (v : Json) : Json :=
  if inside && key == "password" then v.blank else v.maskIn (key == "credentials")

lemma maskItems_eq_map (items : List Json) : maskItems items = items.map mask := by
  induction items with
  | nil => rfl
  | cons v rest ih => rw [maskItems, ih, List.map_cons, mask]

lemma maskFields_eq_map (inside : Bool) (fields : List (String × Json)) :
    maskFields inside fields = fields.map fun e => (e.1, maskField inside e.1 e.2) := by
  induction fields with
  | nil => rfl
  | cons e rest ih => rw [maskFields, ih, List.map_cons, maskField]

lemma maskField_of_ne {key : String} (h : key ≠ "credentials") (v : Json) :
    maskField false key v = v.mask := by
  rw [maskField, Bool.false_and, beq_false_of_ne h, mask]
  rfl

/-- How two values with the same mask compare. -/
inductive Alike (inside : Bool) : Json → Json → Prop where
  | same (v : Json) : Alike inside v v
  | array {items items' : List Json} (h : items.map mask = items'.map mask) :
      Alike inside (.array items) (.array items')
  | object {fields fields' : List (String × Json)}
      (h : (Properties.ofList fields).mapValues (maskField inside) =
        (Properties.ofList fields').mapValues (maskField inside)) :
      Alike inside (.object fields) (.object fields')

variable {inside : Bool} {v v' u u' : Json}

lemma alike_of_maskIn_eq (h : v.maskIn inside = v'.maskIn inside) : Alike inside v v' := by
  cases v with
  | array items =>
    cases v' with
    | array items' =>
      rw [maskIn, maskIn, Json.array.injEq, maskItems_eq_map, maskItems_eq_map] at h
      exact .array h
    | _ => cases h
  | object fields =>
    cases v' with
    | object fields' =>
      rw [maskIn, maskIn, Json.object.injEq, maskFields_eq_map, maskFields_eq_map] at h
      exact .object (by rw [← Properties.ofList_map, ← Properties.ofList_map, h])
    | _ => cases h
  | null | bool | number | string =>
    cases v' <;> cases h
    exact .same _

/-! ### Messages -/

/-- What two messages may show of a value and its counterpart: the pairs of values at one place in
them that may be quoted in full, and those that may be described. -/
structure Exposure where
  quoted : Json → Json → Prop
  described : Json → Json → Prop

/-- Two texts that are the same, or differ only in a value that each of them shows: either a quoted
one, where both values have the same mask, or a described one, where both have the same type. -/
inductive Worded (s : Exposure) : String → String → Prop where
  | same (text : String) : Worded s text text
  | quoting {u u' : Json} (front : String) (hu : s.quoted u u') (h : u.mask = u'.mask) :
      Worded s (front ++ u.compact) (front ++ u'.compact)
  | describing {u u' : Json} (front back : String) (hu : s.described u u')
      (h : u.blank = u'.blank) : Worded s (front ++ u.describe ++ back) (front ++ u'.describe ++ back)

variable {s t : Exposure} {a b : String}

lemma Worded.prepend (h : Worded s a b) (front : String) : Worded s (front ++ a) (front ++ b) := by
  cases h with
  | same => exact .same _
  | quoting mid hu h =>
    rw [← String.append_assoc, ← String.append_assoc]
    exact .quoting _ hu h
  | describing mid back hu h =>
    simp only [← String.append_assoc]
    exact .describing _ back hu h

/-- More may be shown. -/
lemma Worded.mono (h : Worded s a b) (hquoted : ∀ u u', s.quoted u u' → t.quoted u u')
    (hdescribed : ∀ u u', s.described u u' → t.described u u') : Worded t a b := by
  cases h with
  | same => exact .same _
  | quoting front hu h => exact .quoting front (hquoted _ _ hu) h
  | describing front back hu h => exact .describing front back (hdescribed _ _ hu) h

/-- Where no value that is shown differs from its counterpart, the texts are the same. -/
lemma Worded.eq (h : Worded s a b) (hquoted : ∀ u u', s.quoted u u' → u = u')
    (hdescribed : ∀ u u', s.described u u' → u = u') : a = b := by
  cases h with
  | same => rfl
  | quoting front hu h => rw [hquoted _ _ hu]
  | describing front back hu h => rw [hdescribed _ _ hu]

/-- What may be quoted when a value and its counterpart are refused at a property: the whole values,
two items of them at one index, or, of credentials, arrays in their place. -/
inductive Quoted (p : String) : Json → Json → Json → Json → Prop where
  | whole (hp : p ≠ "credentials") (v v' : Json) : Quoted p v v' v v'
  | item {items items' : List Json} {u u' : Json} (hp : p ≠ "credentials")
      (hu : (u, u') ∈ items.zip items') : Quoted p (.array items) (.array items') u u'
  | array (hp : p = "credentials") (items items' : List Json) :
      Quoted p (.array items) (.array items') (.array items) (.array items')

/-- Whether a value is a truth value or a number. -/
def isScalar : Json → Bool
  | .bool _ | .number _ => true
  | .null | .string _ | .array _ | .object _ => false

/-- What may be described when a value and its counterpart are refused at a property: of
credentials, passwords that are truth values or numbers. -/
inductive Described : String → Json → Json → Json → Json → Prop where
  | password {fields fields' : List (String × Json)} {u u' : Json}
      (hu : (Properties.ofList fields).get? "password" = some u)
      (hu' : (Properties.ofList fields').get? "password" = some u') (h : u.isScalar = true) :
      Described "credentials" (.object fields) (.object fields') u u'

/-- What the refusals of a value and of its counterpart at a property may show of them. -/
def exposure (p : String) (v v' : Json) : Exposure :=
  ⟨Quoted p v v', Described p v v'⟩

/-- Whatever may be shown at a key of some entries and their counterparts may be shown. -/
def Exposure.Covers (s : Exposure) (es es' : List (String × Json)) : Prop :=
  ∀ p v v', (p, v) ∈ es → (p, v') ∈ es' →
    (∀ u u', Quoted p v v' u u' → s.quoted u u') ∧ ∀ u u', Described p v v' u u' → s.described u u'

end Json

/-! ### Shapes -/

open Json (Exposure Worded Quoted Described maskField)

variable {s : Exposure} {p : String} {v v' : Json}

namespace Reason

/-- Two reasons that show no more than this of two values. -/
def Alike (s : Exposure) (reason reason' : Reason) : Prop :=
  Worded s reason.message reason'.message

lemma Alike.refl (reason : Reason) : Alike s reason reason :=
  .same _

lemma expectString_related (h : v.mask = v'.mask) (hs : s.quoted v v') :
    Related (Alike s) Eq v.expectString v'.expectString := by
  cases Json.alike_of_maskIn_eq h with
  | same => exact .refl .refl (fun _ => rfl) _
  | array | object => exact .error (.quoting "expected a string, got " hs h)

lemma expectItems_related {items items' : List Json}
    (h : List.Forall₂ (fun v v' => v.mask = v'.mask) items items')
    (hs : ∀ u u', (u, u') ∈ items.zip items' → s.quoted u u') :
    Related (Alike s) Eq (Json.expectItems items) (Json.expectItems items') := by
  induction h with
  | nil => exact .ok rfl
  | @cons v v' rest rest' hv _ ih =>
    have hnext := ih fun u u' hu => hs u u' (List.mem_cons_of_mem _ hu)
    refine (expectString_related hv (hs v v' List.mem_cons_self)).bind ?_
    rintro t _ rfl
    refine hnext.bind ?_
    rintro ts _ rfl
    exact .ok rfl

lemma expectStrings_related (hp : p ≠ "credentials") (h : v.mask = v'.mask) :
    Related (Alike (Json.exposure p v v')) Eq v.expectStrings v'.expectStrings := by
  cases Json.alike_of_maskIn_eq h with
  | same => exact .refl .refl (fun _ => rfl) _
  | array hitems => exact expectItems_related (forall₂_of_map_eq hitems) fun _ _ hu => .item hp hu
  | object =>
    exact .error (.quoting "expected a string or a list of strings, got " (.whole hp _ _) h)

end Reason

/-! ### Credentials -/

/-- Two errors that show no more than this of two values. -/
def CredentialsError.Alike (s : Exposure) (e e' : CredentialsError) : Prop :=
  Worded s e.message e'.message

namespace Credentials

open CredentialsError (Alike)

lemma partOfJson_related (h : v.mask = v'.mask) :
    Related (Alike s) Eq (partOfJson v) (partOfJson v') := by
  cases Json.alike_of_maskIn_eq h with
  | same => exact .refl (fun _ => .same _) (fun _ => rfl) _
  | array | object => exact .error (.same _)

/-- Of passwords of one type, a truth value or a number is described. -/
lemma partOfJson_password_related (h : v.blank = v'.blank)
    (hs : v.isScalar = true → s.described v v') :
    Related (Alike s) (fun part part' => part.isSome = part'.isSome)
      (partOfJson v) (partOfJson v') := by
  cases v with
  | bool | number =>
    cases v' <;> cases h
    exact .error (.describing "invalid type: " ", expected a string" (hs rfl) rfl)
  | array | object =>
    cases v' <;> cases h
    exact .error (.same _)
  | null | string =>
    cases v' <;> cases h
    exact .ok rfl

lemma redact_eq_iff {c c' : Credentials} : c.redact = c'.redact ↔
    c.username = c'.username ∧ c.password.isSome = c'.password.isSome := by
  obtain ⟨u, p⟩ := c
  obtain ⟨u', p'⟩ := c'
  cases p <;> cases p' <;> simp [redact]

/-- The passwords that were read may differ; both are there, or neither is. -/
lemma ofFields_related {es es' : List (String × Json)} {c c' : Credentials}
    (h : List.Forall₂ (fun e e' => (e.1, maskField true e.1 e.2) = (e'.1, maskField true e'.1 e'.2))
      es es') (hc : c.redact = c'.redact)
    (hs : ∀ v v', ("password", v) ∈ es → ("password", v') ∈ es' → v.isScalar = true →
      s.described v v') :
    Related (Alike s) (fun c c' => c.redact = c'.redact) (c.ofFields es) (c'.ofFields es') := by
  induction h generalizing c c' with
  | nil => exact .ok hc
  | @cons e e' rest rest' he _ ih =>
    obtain ⟨key, v⟩ := e
    obtain ⟨key', v'⟩ := e'
    obtain ⟨rfl, hv⟩ := Prod.mk.inj he
    obtain ⟨hu, hp⟩ := redact_eq_iff.1 hc
    have hnext {d d' : Credentials} (hd : d.redact = d'.redact) := ih hd fun w w' hw hw' =>
      hs w w' (List.mem_cons_of_mem _ hw) (List.mem_cons_of_mem _ hw')
    rw [ofFields, ofFields]
    split_ifs with husername hpassword
    · subst husername
      refine (partOfJson_related hv).bind ?_
      rintro part _ rfl
      exact hnext (redact_eq_iff.2 ⟨rfl, hp⟩)
    · subst hpassword
      refine (partOfJson_password_related hv
        (hs v v' List.mem_cons_self List.mem_cons_self)).bind ?_
      intro part part' hpart
      exact hnext (redact_eq_iff.2 ⟨hu, hpart⟩)
    · exact .error (.same _)

end Credentials

lemma Reason.expectCredentials_related (h : v.maskIn true = v'.maskIn true) :
    Related (Alike (Json.exposure "credentials" v v')) (fun c c' => c.redact = c'.redact)
      v.expectCredentials v'.expectCredentials := by
  cases Json.alike_of_maskIn_eq h with
  | same =>
    exact Related.refl (R := fun c c' : Credentials => c.redact = c'.redact) Alike.refl
      (fun _ => rfl) _
  | @array items items' hitems =>
    have hmask : (Json.array items).mask = (Json.array items').mask := by
      simpa only [Json.mask, Json.maskIn, Json.maskItems_eq_map, Json.array.injEq] using hitems
    exact .error (.quoting "expected a map with username and password, got " (.array rfl _ _) hmask)
  | @object fields fields' hfields =>
    have hentries := forall₂_of_map_eq (congrArg Properties.entries hfields)
    have hread := Credentials.ofFields_related
      (s := Json.exposure "credentials" (.object fields) (.object fields')) hentries
      (rfl : Credentials.empty.redact = Credentials.empty.redact) fun w w' hw hw' h =>
        .password (Properties.get?_eq_some_iff.2 hw) (Properties.get?_eq_some_iff.2 hw') h
    exact hread.mapError fun _ _ he => he

end Depot
