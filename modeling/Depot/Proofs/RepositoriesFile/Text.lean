import Depot.Proofs.Yaml.Value
import Depot.RepositoriesFile.Text

/-!
# Repositories files read back

The text of a repositories file with storable entries is read as the file again (`ofYaml_toYaml`),
and the entries of a file that was read are storable if their numbers are integers
(`storable_of_ofYaml`).
-/

namespace Depot.RepositoriesFile

open Json (Storable)
open Yaml (Denotes Document Error Node inTurn)

variable {d : Document} {f g : RepositoriesFile} {complete : Bool} {seen : List String}
  {name : String} {k n : Node} {rest children : List Node} {jumps : Nat}
  {fields : List (String × Json)}

/-- How deep the collections inside an entry may nest. -/
def entryDepth : Nat := depthLimit - 1

lemma depthLimit_eq : depthLimit = entryDepth + 1 := rfl

/-! ### Reading what was written -/

/-- A field of the root that was not read before. -/
lemma readFields_cons (hk : Denotes (.string name) k) (hseen : name ∉ seen)
    (hname : name ∈ fieldNames)
    (hread : readField d f name (Yaml.valueTrail .root k) n jumps = .ok (g, jumps)) :
    readFields d complete seen f (k :: n :: rest) jumps =
      readFields d complete (name :: seen) g rest jumps := by
  have hcontains : seen.contains name = false := by simpa using hseen
  have hknown : fieldNames.contains name = true := by simpa using hname
  rw [readFields, Yaml.readText_denotes hk]
  simp only [bind, Except.bind, hcontains, hread, hknown, Bool.false_eq_true, if_false, if_true]

/-- The field of an option, if it is set. -/
def optionField (name : String) (value : Option String) : List (String × Json) :=
  (value.map fun s => (name, .string s)).toList

/-- A field of the root that is left out where there is no value. -/
lemma readFields_option {value : Option String}
    (set : RepositoriesFile → String → RepositoriesFile) (hname : name ∈ fieldNames)
    (hseen : name ∉ seen)
    (hread : ∀ ⦃d f s trail n jumps⦄, Denotes (.string s) n →
      readField d f name trail n jumps = .ok (set f s, jumps))
    (h : List.Forall₂ Denotes (inTurn (optionField name value ++ fields)) children) :
    ∃ seen' rest, seen' ⊆ name :: seen ∧ List.Forall₂ Denotes (inTurn fields) rest ∧
      ∀ d complete f jumps, readFields d complete seen f children jumps =
        readFields d complete seen' (value.elim f (set f)) rest jumps := by
  cases value with
  | none => exact ⟨seen, children, List.subset_cons_self _ _, h, fun _ _ _ _ => rfl⟩
  | some s =>
    obtain ⟨k, n, rest, rfl, hkey, hvalue, hrest⟩ := Yaml.exists_of_inTurn_cons h
    exact ⟨_, rest, List.Subset.refl _, hrest, fun d complete f jumps =>
      readFields_cons hkey hseen hname (hread hvalue)⟩

section

variable {trail : Yaml.Trail} {s : String}

lemma readField_apiVersion (h : Denotes (.string s) n) :
    readField d f "apiVersion" trail n jumps = .ok ({ f with apiVersion := s }, jumps) := by
  simp only [readField, Yaml.readText_denotes h]
  rfl

lemma readField_localRepository (h : Denotes (.string s) n) :
    readField d f "localRepository" trail n jumps =
      .ok ({ f with localRepository := some s }, jumps) := by
  simp only [readField, Yaml.readOptionalText_denotes h]
  rfl

lemma readField_baseDir (h : Denotes (.string s) n) :
    readField d f "baseDir" trail n jumps = .ok ({ f with baseDir := some ⟨s⟩ }, jumps) := by
  simp only [readField, Yaml.readOptionalText_denotes h]
  rfl

lemma readField_repositories {items : List Json} (hitems : ∀ v ∈ items, Storable entryDepth v)
    (h : Denotes (.array items) n) :
    readField d f "repositories" trail n jumps = .ok ({ f with repositories := items }, jumps) := by
  simp only [readField, depthLimit_eq, Yaml.readList_denotes hitems h]
  rfl

end

/-- The fields of a file behind the first one. -/
def laterFields (f : RepositoriesFile) : List (String × Json) :=
  optionField "localRepository" f.localRepository ++
    (optionField "baseDir" (f.baseDir.map Path.text) ++ [("repositories", .array f.repositories)])

lemma toJson_eq (f : RepositoriesFile) :
    f.toJson = .object (("apiVersion", .string f.apiVersion) :: f.laterFields) := by
  simp [toJson, laterFields, optionField]

lemma toYaml_eq (f : RepositoriesFile) : f.toYaml =
    String.ofList (Yaml.writeFields 0 (("apiVersion", .string f.apiVersion) :: f.laterFields)) := by
  rw [toYaml, toJson_eq, Yaml.write]

lemma storable_of_mem_laterFields (hstorable : ∀ v ∈ f.repositories, Storable entryDepth v) :
    ∀ g ∈ f.laterFields, Storable depthLimit g.2 := by
  have hoption : ∀ name value, ∀ g ∈ optionField name value, Storable depthLimit g.2 := by
    rintro name (_ | s) g hg
    · cases hg
    · rw [List.mem_singleton.1 hg]
      exact .string _ s
  simp only [laterFields, List.forall_mem_cons, List.forall_mem_append]
  exact ⟨hoption _ _, hoption _ _, .array hstorable, nofun⟩

/-- The children of a root that denotes a file are read as the file. -/
lemma readFields_denotes (hstorable : ∀ v ∈ f.repositories, Storable entryDepth v)
    (hn : Denotes f.toJson n) : ∃ m children, n = .mapping m none children true ∧
      readFields d true [] {} children 0 = .ok f := by
  rw [toJson_eq] at hn
  cases hn with
  | @object m _ children h =>
    refine ⟨m, children, rfl, ?_⟩
    obtain ⟨k, n, children, rfl, hkey, hvalue, h⟩ := Yaml.exists_of_inTurn_cons h
    have hversion : "apiVersion" ∉ [] := by simp
    rw [readFields_cons hkey hversion (by decide) (readField_apiVersion hvalue)]
    have hlocal : "localRepository" ∉ ["apiVersion"] := by decide
    obtain ⟨seen₁, children, hseen₁, h, heq⟩ := readFields_option
      (fun f s => { f with localRepository := some s }) (by decide) hlocal
      (fun _ _ _ _ _ _ => readField_localRepository) h
    rw [heq]
    have hbase : "baseDir" ∉ seen₁ := fun hmem => absurd (hseen₁ hmem) (by decide)
    obtain ⟨seen₂, children, hseen₂, h, heq⟩ := readFields_option
      (fun f s => { f with baseDir := some ⟨s⟩ }) (by decide) hbase
      (fun _ _ _ _ _ _ => readField_baseDir) h
    rw [heq]
    have hrepositories : "repositories" ∉ seen₂ := fun hmem => by
      rcases List.mem_cons.1 (hseen₂ hmem) with hmem | hmem
      · exact absurd hmem (by decide)
      · exact absurd (hseen₁ hmem) (by decide)
    obtain ⟨k, n, children, rfl, hkey, hvalue, h⟩ := Yaml.exists_of_inTurn_cons h
    cases h
    rw [readFields_cons hkey hrepositories (by decide) (readField_repositories hstorable hvalue)]
    obtain ⟨v, l, b, r⟩ := f
    cases l <;> cases b <;> rfl

/-- The text of a file with storable entries is read as the file. -/
theorem ofYaml_toYaml (hstorable : ∀ v ∈ f.repositories, Storable entryDepth v) :
    ofYaml f.toYaml = .ok f := by
  have hfields : ∀ g ∈ ("apiVersion", Json.string f.apiVersion) :: f.laterFields,
      Storable depthLimit g.2 :=
    List.forall_mem_cons.2 ⟨.string _ _, storable_of_mem_laterFields hstorable⟩
  obtain ⟨n, d, hread, hn, hroot, hbroken, hmore⟩ := Document.read_writeFields hfields
  rw [← toJson_eq] at hn
  obtain ⟨m, children, rfl, hchildren⟩ := readFields_denotes hstorable hn
  have hofRoot : ofRoot d = .ok f := by
    rw [ofRoot, hroot]
    exact mapError_eq_ok.2 hchildren
  have hdocument : ofDocument d = .ok f := by
    simp only [ofDocument, hofRoot, hbroken, hmore, bind, Except.bind]
    rfl
  rw [ofYaml, toYaml_eq, hread, hdocument]
  rfl

/-! ### Files that were read -/

/-- A field leaves the entries as they are, or they are read from it. -/
lemma readField_cases {trail : Yaml.Trail} {jumps' : Nat}
    (h : readField d f name trail n jumps = .ok (g, jumps')) :
    g.repositories = f.repositories ∨
      d.readList depthLimit trail n jumps = .ok (g.repositories, jumps') := by
  unfold readField at h
  split at h
  all_goals
    obtain ⟨_, hread, h⟩ := bind_eq_ok.1 h
    cases h
  · exact .inl rfl
  · exact .inl rfl
  · exact .inl rfl
  · exact .inr hread
  · exact .inl rfl

lemma storable_of_readFields (h : readFields d complete seen f children jumps = .ok g)
    (hf : ∀ v ∈ f.repositories, v.isIntegral = true → Storable entryDepth v) :
    ∀ v ∈ g.repositories, v.isIntegral = true → Storable entryDepth v := by
  induction children using List.twoStepInduction generalizing seen f jumps with
  | nil =>
    rw [readFields] at h
    split at h
    · cases h
      exact hf
    · cases h
  | singleton k =>
    rw [readFields] at h
    obtain ⟨⟨name, jumps₁⟩, -, h⟩ := bind_eq_ok.1 h
    dsimp only at h
    split at h <;> cases h
  | cons_cons k n rest ih _ =>
    rw [readFields] at h
    obtain ⟨⟨name, jumps₁⟩, -, h⟩ := bind_eq_ok.1 h
    dsimp only at h
    split at h
    · cases h
    obtain ⟨⟨f', jumps₂⟩, hfield, h⟩ := bind_eq_ok.1 h
    refine ih h ?_
    rcases readField_cases hfield with heq | hlist
    · rwa [heq]
    · exact Yaml.storable_of_readList hlist

/-- The entries of a file that was read are storable, if their numbers are integers. -/
theorem storable_of_ofYaml {text : String} (h : ofYaml text = .ok f) :
    ∀ v ∈ f.repositories, v.isIntegral = true → Storable entryDepth v := by
  rw [ofYaml, mapError_eq_ok, ofDocument] at h
  obtain ⟨g, hroot, h⟩ := bind_eq_ok.1 h
  obtain rfl : g = f := by
    split at h
    · cases h
    · split at h
      · cases h
      · cases h
        rfl
  unfold ofRoot at hroot
  split at hroot
  · split at hroot
    · cases hroot
    · cases hroot
      exact nofun
  · exact storable_of_readFields (mapError_eq_ok.1 hroot) nofun
  · split at hroot
    · cases hroot
      exact nofun
    · exact absurd hroot Yaml.notCollection_ne_ok

end Depot.RepositoriesFile
