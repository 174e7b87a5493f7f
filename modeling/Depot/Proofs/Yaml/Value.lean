import Depot.Proofs.Yaml.Tree
import Depot.Yaml.Value
import Mathlib.Data.List.Induction

/-!
# Values read back

A node that denotes a storable value is read as the value (`readJson_denotes`), and a value that was
read is storable (`storable_of_readJson`).
-/

namespace Depot.Yaml

open Json (Storable)

variable {d : Document} {v : Json} {n : Node} {trail : Trail} {jumps index depth : Nat}
  {expected : String}

/-! ### Scalars -/

lemma meaning_string {s : String} (h : Style.ofString s = .plain) : Meaning.ofText s = .string := by
  have hspelled := spelled 0 s
  rw [h] at hspelled
  generalize spell 0 s = sp at hspelled
  cases hspelled with
  | plain _ hstring =>
    simp only [Style.readsAsString, Bool.and_eq_true, beq_iff_eq] at hstring
    exact hstring.1

/-- A string is found to be itself, whether it is plain or quoted. -/
lemma foundScalar_string (s : String) :
    foundScalar none s (Style.ofString s == .plain) = .ok (.string s) := by
  unfold foundScalar
  by_cases h : Style.ofString s = .plain
  · simp [h, foundPlain, meaning_string h]
  · simp [h]

lemma foundScalar_integer (i : Json.Integer) :
    foundScalar none (String.ofList (spellNumber (.integer i))) true =
      .ok (.meaning (.integer i.value)) := by
  simp [foundScalar, foundPlain, ofText_integer]

lemma ofInt_value (i : Json.Integer) : Json.ofInt i.value = .number (.integer i) := by
  rw [Json.ofInt, Json.Integer.ofInt?, dif_pos i.inRange]

/-! ### Nodes -/

/-- What a reader of values gives for a node, wherever it is. -/
def ReadsAs (d : Document) (depth : Nat) (v : Json) (n : Node) : Prop :=
  ∀ trail jumps, d.readJson depth trail n jumps = .ok (v, jumps)

lemma readsAs_scalar {m : Mark} {s : String} {plain : Bool} {found : Found}
    (hfound : foundScalar none s plain = .ok found) (hv : found.toJson = .ok v) :
    ReadsAs d depth v (.scalar m none s plain) := by
  intro trail jumps
  rw [Document.readJson]
  simp only [Document.follow, isVariant, bind, Except.bind, hfound, hv]
  rfl

/-- Items are read one behind the other. -/
lemma readItems_readsAs {items : List Json} {children : List Node}
    (hdenotes : List.Forall₂ Denotes items children)
    (hreads : ∀ v ∈ items, ∀ n, Denotes v n → ReadsAs d depth v n) (trail : Trail)
    (index jumps : Nat) :
    readItems none (d.readJson depth) trail index children jumps = .ok (items, jumps) := by
  induction hdenotes generalizing index with
  | nil => rfl
  | cons hv _ ih =>
    obtain ⟨hreads, hrest⟩ := List.forall_mem_cons.1 hreads
    simp only [readItems, hreads _ hv _ jumps, bind, Except.bind, ih hrest (index + 1)]
    rfl

/-- The text of a string is read as itself. -/
lemma readText_denotes {s : String} (h : Denotes (.string s) n) (trail : Trail) (jumps : Nat) :
    d.readText expected trail n jumps = .ok (s, jumps) := by
  cases h
  rfl

/-- Fields are read one behind the other, each a key and its value. -/
lemma readFields_readsAs {fields : List (String × Json)} {children : List Node}
    (hdenotes : List.Forall₂ Denotes (inTurn fields) children)
    (hreads : ∀ f ∈ fields, ∀ n, Denotes f.2 n → ReadsAs d depth f.2 n) (trail : Trail)
    (jumps : Nat) :
    d.readFields none (d.readJson depth) trail expected children jumps = .ok (fields, jumps) := by
  induction fields generalizing children expected with
  | nil =>
    cases hdenotes
    rfl
  | cons f rest ih =>
    obtain ⟨key, v⟩ := f
    obtain ⟨hf, hrest⟩ := List.forall_mem_cons.1 hreads
    obtain ⟨k, n, children, rfl, hkey, hvalue, hdenotes⟩ := exists_of_inTurn_cons hdenotes
    simp only [Document.readFields, readText_denotes hkey, hf _ hvalue _ jumps, bind,
      Except.bind, ih hdenotes hrest]
    rfl

/-- A node that denotes a storable value is read as the value. -/
theorem readJson_denotes (hv : Storable depth v) (hn : Denotes v n) : ReadsAs d depth v n := by
  induction hv generalizing n with
  | null =>
    cases hn
    exact readsAs_scalar rfl rfl
  | bool _ b =>
    cases hn
    cases b
    · exact readsAs_scalar rfl rfl
    · exact readsAs_scalar rfl rfl
  | integer _ i =>
    cases hn
    exact readsAs_scalar (foundScalar_integer i) (congrArg _ (ofInt_value i))
  | string _ s =>
    cases hn
    exact readsAs_scalar (foundScalar_string s) rfl
  | @array depth items _ ih =>
    cases hn with
    | @array m _ children hchildren =>
      intro trail jumps
      have hstep : d.readJson (depth + 1) trail (.sequence m none children true) jumps =
          (readItems none (d.readJson depth) trail 0 children jumps).bind fun r =>
            .ok (.array r.1, r.2) := rfl
      rw [hstep, readItems_readsAs hchildren fun v hv n hn => ih v hv hn]
      rfl
  | @object depth fields hkeys _ ih =>
    cases hn with
    | @object m _ children hchildren =>
      intro trail jumps
      have hstep : d.readJson (depth + 1) trail (.mapping m none children true) jumps =
          (d.readFields none (d.readJson depth) trail "a string key" children jumps).bind fun r =>
            .ok (.ofFields r.1, r.2) := rfl
      rw [hstep, readFields_readsAs hchildren fun f hf n hn => ih f hf hn]
      simp only [Except.bind, Json.ofFields_of_pairwise hkeys]

/-- A string that is plain is not a spelling of null. -/
lemma isAbsent_denotes {s : String} (h : Denotes (.string s) n) : isAbsent n = .ok false := by
  cases h
  by_cases hplain : Style.ofString s = .plain
  · have hnull : (s.isEmpty || Meaning.isNull s) = false := by
      rw [← Bool.not_eq_true]
      intro hnull
      have hmeaning := meaning_string hplain
      rw [Meaning.ofText, if_pos hnull] at hmeaning
      cases hmeaning
    simp [isAbsent, hplain, hnull]
  · simp [isAbsent, hplain]

/-- A string is read as itself where nothing could stand. -/
lemma readOptionalText_denotes {s : String} (h : Denotes (.string s) n) (trail : Trail)
    (jumps : Nat) : d.readOptionalText expected trail n jumps = .ok (some s, jumps) := by
  have habsent := isAbsent_denotes h
  cases h
  simp only [Document.readOptionalText, Document.follow, bind, Except.bind, habsent]
  rfl

/-- The items of a sequence are read as themselves. -/
lemma readList_denotes {items : List Json} (hitems : ∀ v ∈ items, Storable depth v)
    (hn : Denotes (.array items) n) (trail : Trail) (jumps : Nat) :
    d.readList (depth + 1) trail n jumps = .ok (items, jumps) := by
  cases hn with
  | array m hchildren =>
    exact readItems_readsAs hchildren (fun v hv n hn => readJson_denotes (hitems v hv) hn) trail 0
      jumps

/-! ### Values that were read -/

lemma storable_of_toJson {found : Found} (h : found.toJson = .ok v) (hv : v.isIntegral = true)
    (depth : Nat) : Storable depth v := by
  unfold Found.toJson at h
  split at h
  · cases h
    exact .null depth
  · cases h
    exact .bool depth _
  · cases h
    unfold Json.ofInt at hv ⊢
    split at hv
    · exact .integer depth _
    · cases hv
  · cases h
    unfold Json.ofBinary64 at hv ⊢
    split at hv
    · cases hv
    · next hnot => 
      rw [if_neg hnot]
      exact .null depth
  · cases h
    exact .string depth _
  · cases h
  · cases h

lemma of_mem_readItems {P : Json → Prop} {cut : Option Error} {read : Reader Json}
    (hread : ∀ trail n jumps v jumps', read trail n jumps = .ok (v, jumps') → P v)
    {children : List Node} {items : List Json} {jumps' : Nat}
    (h : readItems cut read trail index children jumps = .ok (items, jumps')) :
    ∀ v ∈ items, P v := by
  induction children generalizing index jumps items with
  | nil =>
    cases cut with
    | none =>
      cases h
      exact nofun
    | some e => cases h
  | cons n rest ih =>
    rw [readItems] at h
    obtain ⟨⟨v, jumps₁⟩, hv, h⟩ := bind_eq_ok.1 h
    obtain ⟨⟨vs, jumps₂⟩, hvs, h⟩ := bind_eq_ok.1 h
    cases h
    exact List.forall_mem_cons.2 ⟨hread _ _ _ _ _ hv, ih hvs⟩

lemma of_mem_readFields {P : Json → Prop} {cut : Option Error} {read : Reader Json}
    (hread : ∀ trail n jumps v jumps', read trail n jumps = .ok (v, jumps') → P v)
    {children : List Node} {fields : List (String × Json)} {jumps' : Nat}
    (h : d.readFields cut read trail expected children jumps = .ok (fields, jumps')) :
    ∀ f ∈ fields, P f.2 := by
  induction children using List.twoStepInduction generalizing expected jumps fields with
  | nil =>
    cases cut with
    | none =>
      cases h
      exact nofun
    | some e => cases h
  | singleton k =>
    rw [Document.readFields] at h
    obtain ⟨_, -, h⟩ := bind_eq_ok.1 h
    cases h
  | cons_cons k n rest ih _ =>
    rw [Document.readFields] at h
    obtain ⟨⟨key, jumps₁⟩, -, h⟩ := bind_eq_ok.1 h
    obtain ⟨⟨v, jumps₂⟩, hv, h⟩ := bind_eq_ok.1 h
    obtain ⟨⟨vs, jumps₃⟩, hvs, h⟩ := bind_eq_ok.1 h
    cases h
    exact List.forall_mem_cons.2 ⟨hread _ _ _ _ _ hv, ih hvs⟩

/-- A value that was read is what was found in a scalar, or the items of a sequence or the fields of
a mapping, which were read one collection deeper. -/
lemma readJson_cases {jumps' : Nat} (h : d.readJson depth trail n jumps = .ok (v, jumps')) :
    (∃ found : Found, found.toJson = .ok v) ∨
      (∃ below cut trail children jumps items, depth = below + 1 ∧
        readItems cut (d.readJson below) trail 0 children jumps = .ok (items, jumps') ∧
        v = .array items) ∨
      ∃ below cut trail children jumps fields, depth = below + 1 ∧
        d.readFields cut (d.readJson below) trail "a string key" children jumps =
          .ok (fields, jumps') ∧
        v = .ofFields fields := by
  unfold Document.readJson at h
  obtain ⟨⟨trail, n, jumps⟩, -, h⟩ := bind_eq_ok.1 h
  obtain _ | ⟨m, tag, s, plain⟩ | ⟨m, tag, children, complete⟩ | ⟨m, tag, children, complete⟩ := n
  · cases h
  · simp only at h
    split at h
    · cases h
    split at h
    next hjson =>
      cases h
      obtain ⟨found, -, hfound⟩ := bind_eq_ok.1 hjson
      exact .inl ⟨found, hfound⟩
    next => cases h
  · simp only at h
    split at h
    · cases h
    cases depth with
    | zero => cases h
    | succ below =>
      obtain ⟨_, ⟨⟩, h⟩ := bind_eq_ok.1 h
      obtain ⟨⟨items, jumps₁⟩, hitems, h⟩ := bind_eq_ok.1 h
      cases h
      exact .inr (.inl ⟨below, _, _, _, _, items, rfl, hitems, rfl⟩)
  · simp only at h
    split at h
    · cases h
    cases depth with
    | zero => cases h
    | succ below =>
      obtain ⟨_, ⟨⟩, h⟩ := bind_eq_ok.1 h
      obtain ⟨⟨fields, jumps₁⟩, hfields, h⟩ := bind_eq_ok.1 h
      cases h
      exact .inr (.inr ⟨below, _, _, _, _, fields, rfl, hfields, rfl⟩)

/-- A value that was read is storable, if its numbers are integers. -/
theorem storable_of_readJson {jumps' : Nat} (h : d.readJson depth trail n jumps = .ok (v, jumps'))
    (hv : v.isIntegral = true) : Storable depth v := by
  induction depth generalizing trail n jumps v jumps' with
  | zero =>
    rcases readJson_cases h with ⟨found, hfound⟩ | ⟨_, _, _, _, _, _, hdepth, -⟩ |
      ⟨_, _, _, _, _, _, hdepth, -⟩
    · exact storable_of_toJson hfound hv 0
    · cases hdepth
    · cases hdepth
  | succ depth ih =>
    have hread : ∀ trail n jumps v jumps', d.readJson depth trail n jumps = .ok (v, jumps') →
        v.isIntegral = true → Storable depth v := fun _ _ _ _ _ => ih
    rcases readJson_cases h with ⟨found, hfound⟩ | ⟨below, _, _, _, _, items, hdepth, hitems, rfl⟩ |
      ⟨below, _, _, _, _, fields, hdepth, hfields, rfl⟩
    · exact storable_of_toJson hfound hv _
    · obtain rfl := Nat.succ.inj hdepth
      have hintegral := Json.isIntegral_array.1 hv
      exact .array fun v hmem => of_mem_readItems hread hitems v hmem (hintegral v hmem)
    · obtain rfl := Nat.succ.inj hdepth
      have hintegral := Json.isIntegral_object.1 hv
      refine .object (Properties.ofList fields).ordered fun f hmem => ?_
      exact of_mem_readFields hread hfields f (Json.mem_of_mem_ofList hmem) (hintegral f hmem)

lemma notCollection_ne_ok {α : Type} {a : α} : notCollection expected trail n ≠ .ok a := by
  intro h
  unfold notCollection at h
  split at h
  · split at h <;> cases h
  all_goals cases h

/-- The items of a list that was read are storable, if their numbers are integers. -/
lemma storable_of_readList {items : List Json} {jumps' : Nat}
    (h : d.readList (depth + 1) trail n jumps = .ok (items, jumps')) :
    ∀ v ∈ items, v.isIntegral = true → Storable depth v := by
  unfold Document.readList at h
  obtain ⟨⟨trail, n, jumps⟩, -, h⟩ := bind_eq_ok.1 h
  obtain _ | ⟨m, tag, s, plain⟩ | ⟨m, tag, children, complete⟩ | ⟨m, tag, children, complete⟩ := n
  case sequence => exact of_mem_readItems (fun _ _ _ _ _ => storable_of_readJson) h
  all_goals
    simp only at h
    split at h
    · cases h
      exact nofun
    · exact absurd h notCollection_ne_ok

end Depot.Yaml
