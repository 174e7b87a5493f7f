import Depot.Proofs.Yaml.Events
import Depot.Yaml.Document

/-!
# The node of a value

The events of a value build one node, which denotes the value (`builds`). So the document of a
mapping has a root that denotes the mapping, and is complete (`read_writeFields`).
-/

namespace Depot.Yaml

open Json (Storable)

/-- The keys and values of some fields in turn. -/
def inTurn (fields : List (String × Json)) : List Json :=
  fields.flatMap fun f => [.string f.1, f.2]

/-- A node has the structure of a value. -/
inductive Denotes : Json → Node → Prop
  | null (m : Mark) : Denotes .null (.scalar m none "null" true)
  | bool (m : Mark) (b : Bool) :
      Denotes (.bool b) (.scalar m none (if b then "true" else "false") true)
  | number (m : Mark) (n : Json.Number) :
      Denotes (.number n) (.scalar m none (String.ofList (spellNumber n)) true)
  | string (m : Mark) (s : String) :
      Denotes (.string s) (.scalar m none s (Style.ofString s == .plain))
  | array (m : Mark) {items : List Json} {children : List Node}
      (h : List.Forall₂ Denotes items children) :
      Denotes (.array items) (.sequence m none children true)
  | object (m : Mark) {fields : List (String × Json)} {children : List Node}
      (h : List.Forall₂ Denotes (inTurn fields) children) :
      Denotes (.object fields) (.mapping m none children true)

/-- The first two children of a mapping denote the key and the value of its first field. -/
lemma exists_of_inTurn_cons {key : String} {v : Json} {fields : List (String × Json)}
    {children : List Node} (h : List.Forall₂ Denotes (inTurn ((key, v) :: fields)) children) :
    ∃ k n rest, children = k :: n :: rest ∧ Denotes (.string key) k ∧ Denotes v n ∧
      List.Forall₂ Denotes (inTurn fields) rest := by
  cases h with
  | cons hkey h =>
    cases h with
    | cons hvalue h => exact ⟨_, _, _, rfl, hkey, hvalue, h⟩

lemma fieldItems_eq (fields : List (String × Json)) :
    fieldItems fields = itemItems (inTurn fields) := by
  induction fields with
  | nil => rfl
  | cons f rest ih => simp [fieldItems, inTurn, itemItems, valueItems, ih]

namespace Document

/-! ### Building -/

/-- A draft with a node added to its innermost collection. -/
structure Draft.Adds (d : Draft) (n : Node) (d' : Draft) : Prop where
  frames : d'.frames = (d.add n).frames
  root : d'.root = (d.add n).root

lemma Draft.adds_of_eq {d e : Draft} (hframes : e.frames = d.frames) (hroot : e.root = d.root)
    (n : Node) : d.Adds n (e.add n) := by
  constructor
  all_goals
    unfold Draft.add
    rw [hframes]
    cases d.frames <;> simp [hroot]

lemma Draft.exists_close_eq {d : Draft} {f : Frame} {frames : List Frame}
    (h : d.frames = f :: frames) : ∃ e : Draft, e.frames = frames ∧ e.root = d.root ∧
      d.close true = e.add (if f.isMapping then .mapping f.mark f.tag f.children.reverse true
        else .sequence f.mark f.tag f.children.reverse true) := by
  unfold Draft.close
  rw [h]
  let n : Node := if f.isMapping then .mapping f.mark f.tag f.children.reverse true
    else .sequence f.mark f.tag f.children.reverse true
  exact ⟨{ d with frames, nodes := (f.place, n) :: d.nodes }, rfl, rfl, rfl⟩

/-- The events of a value lead to a draft with its node. -/
def Builds (v : Json) : Prop :=
  ∀ ⦃d es⦄, es.map Event.item = valueItems v → ∃ n d', Denotes v n ∧ Draft.Adds d n d' ∧
    ∀ fault rest, ofEvents fault d (es ++ rest) = ofEvents fault d' rest

/-- A scalar. -/
lemma builds_scalar {v : Json} {cs : List Char} {plain : Bool}
    (hitems : valueItems v = [.scalar none none cs plain])
    (h : ∀ m, Denotes v (.scalar m none (String.ofList cs) plain)) : Builds v := by
  intro d es hes
  obtain ⟨⟨_, m⟩, rfl, rfl⟩ := List.map_eq_singleton_iff.1 (hes.trans hitems)
  let n : Node := .scalar m none (String.ofList cs) plain
  let e : Draft := { d.count with nodes := (d.size, n) :: d.nodes }
  have hadds : d.Adds n (e.add n) := Draft.adds_of_eq (d := d) (e := e) rfl rfl n
  exact ⟨n, e.add n, h m, hadds, fun _ _ => rfl⟩

/-- Values one behind the other, by induction: each is added to the innermost collection. -/
lemma builds_children {items : List Json} (hitems : ∀ v ∈ items, Builds v) {d : Draft}
    {f : Frame} {frames : List Frame} {es : List Event} (hd : d.frames = f :: frames)
    (hes : es.map Event.item = itemItems items) :
    ∃ ns d', List.Forall₂ Denotes items ns ∧
      d'.frames = { f with children := ns.reverse ++ f.children } :: frames ∧ d'.root = d.root ∧
      ∀ fault rest, ofEvents fault d (es ++ rest) = ofEvents fault d' rest := by
  induction items generalizing d f es with
  | nil =>
    obtain rfl := List.map_eq_nil_iff.1 hes
    exact ⟨[], d, .nil, hd, rfl, fun _ _ => rfl⟩
  | cons v rest ih =>
    obtain ⟨hv, hrest⟩ := List.forall_mem_cons.1 hitems
    obtain ⟨es₁, es₂, rfl, hes₁, hes₂⟩ := List.map_eq_append_iff.1 hes
    obtain ⟨n, d₁, hn, hadds, heq₁⟩ := hv (d := d) hes₁
    have hframes : d₁.frames = { f with children := n :: f.children } :: frames := by
      rw [hadds.frames, Draft.add, hd]
    obtain ⟨ns, d₂, hns, hframes₂, hroot₂, heq₂⟩ := ih hrest hframes hes₂
    refine ⟨n :: ns, d₂, .cons hn hns, ?_, ?_, fun fault more => ?_⟩
    · simpa using hframes₂
    · rw [hroot₂, hadds.root, Draft.add, hd]
    · rw [List.append_assoc, heq₁, heq₂]

/-- A collection. -/
lemma builds_collection {v : Json} {items : List Json} (isMapping : Bool) {start stop : Item}
    (hitems : ∀ v ∈ items, Builds v) (hv : valueItems v = start :: itemItems items ++ [stop])
    (hstart : ∀ fault d m rest,
      ofEvents fault d (⟨start, m⟩ :: rest) = ofEvents fault (d.enter none m none isMapping) rest)
    (hstop : ∀ fault d m rest,
      ofEvents fault d (⟨stop, m⟩ :: rest) = ofEvents fault (d.count.close true) rest)
    (h : ∀ m children, List.Forall₂ Denotes items children → Denotes v
      (if isMapping then .mapping m none children true else .sequence m none children true)) :
    Builds v := by
  intro d es hes
  rw [hv, List.cons_append] at hes
  obtain ⟨⟨_, m⟩, tail, rfl, rfl, htail⟩ := List.map_eq_cons_iff.1 hes
  obtain ⟨inner, last, rfl, hinner, hlast⟩ := List.map_eq_append_iff.1 htail
  obtain ⟨⟨_, m'⟩, rfl, rfl⟩ := List.map_eq_singleton_iff.1 hlast
  obtain ⟨ns, d', hns, hframes, hroot, heq⟩ :=
    builds_children hitems (d := d.enter none m none isMapping) rfl hinner
  obtain ⟨e, heframes, heroot, hclose⟩ :=
    Draft.exists_close_eq (d := d'.count) (hframes : d'.count.frames = _)
  refine ⟨_, d'.count.close true, h m ns hns, ?_, fun fault rest => ?_⟩
  · rw [hclose, List.append_nil, List.reverse_reverse]
    exact Draft.adds_of_eq heframes (heroot.trans hroot) _
  · rw [List.cons_append, hstart, List.append_assoc, heq, List.singleton_append, hstop]

lemma builds_string (s : String) : Builds (.string s) :=
  builds_scalar rfl fun m => by simpa using Denotes.string m s

lemma builds_object {fields : List (String × Json)} (hfields : ∀ f ∈ fields, Builds f.2) :
    Builds (.object fields) := by
  have hturn : ∀ v ∈ inTurn fields, Builds v := by
    intro v hv
    obtain ⟨f, hf, hv⟩ := List.mem_flatMap.1 hv
    rcases List.mem_cons.1 hv with rfl | hv
    · exact builds_string f.1
    · exact List.mem_singleton.1 hv ▸ hfields f hf
  have hitems : valueItems (.object fields) =
      .mappingStart none none :: itemItems (inTurn fields) ++ [.mappingEnd] := by
    rw [valueItems, fieldItems_eq]
  exact builds_collection true hturn hitems (fun _ _ _ _ => rfl) (fun _ _ _ _ => rfl)
    fun m _ h => .object m h

/-- The events of a storable value build its node. -/
theorem builds {depth : Nat} {v : Json} (h : Storable depth v) : Builds v := by
  induction h with
  | null => exact builds_scalar rfl .null
  | bool _ b => exact builds_scalar rfl fun m => by simpa using Denotes.bool m b
  | integer _ i => exact builds_scalar rfl fun m => .number m _
  | string _ s => exact builds_string s
  | array _ ih =>
    exact builds_collection false ih rfl (fun _ _ _ _ => rfl) (fun _ _ _ _ => rfl) fun m _ h =>
      .array m h
  | object _ _ ih => exact builds_object ih

/-- The document of the text of a mapping has a root that denotes the mapping. -/
theorem read_writeFields {depth : Nat} {f : String × Json} {rest : List (String × Json)}
    (h : ∀ g ∈ f :: rest, Storable depth g.2) :
    ∃ n d, Document.read (String.ofList (writeFields 0 (f :: rest))) = d ∧
      Denotes (.object (f :: rest)) n ∧ d.root = some n ∧ d.broken = none ∧ d.hasMore = false := by
  obtain ⟨es, hes, hitems⟩ := events_writeFields h
  obtain ⟨⟨_, m⟩, tail, rfl, rfl, htail⟩ := List.map_eq_cons_iff.1 hitems
  obtain ⟨inner, last, rfl, hinner, hlast⟩ := List.map_eq_append_iff.1 htail
  obtain ⟨⟨_, m₁⟩, last, rfl, rfl, hend⟩ := List.map_eq_cons_iff.1 hlast
  obtain ⟨⟨_, m₂⟩, rfl, rfl⟩ := List.map_eq_singleton_iff.1 hend
  obtain ⟨n, d, hn, hadds, heq⟩ := builds_object (fun g hg => builds (h g hg)) (d := {}) hinner
  have hframes : d.frames = [] := hadds.frames
  have hroot : d.root = some n := hadds.root
  refine ⟨n, _, rfl, hn, ?_⟩
  rw [Document.read, String.toList_ofList, hes]
  simp only [ofEvents, heq]
  simp [Draft.finish, hframes, hroot]

end Document

end Depot.Yaml
