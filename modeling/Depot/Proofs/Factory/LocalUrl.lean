import Depot.Factory
import Depot.Proofs.Path
import Depot.Proofs.Text.Octets
import Depot.Proofs.Text.Percent
import Mathlib

/-!
# The URL of the local repository

The URL of a directory leads back to its path: taken apart at the slashes and decoded, it gives the
components below the root (`Factory.LeadsTo`). So two directories have the same URL exactly when
their paths are equivalent. A factory builds the local repository at such a URL, unless nothing
locates it or there is no absolute path to it (`Factory.mavenLocal_by_location`).
-/

namespace Depot

open Text (Percent.encode Percent.decode Percent.decode_encode Percent.slash_notMem_encode
  eq_of_octets_eq)

namespace Path

variable {xs ys : List (List Char)}

/-! ### Components as texts -/

/-- The text of a component. -/
def Component.text : Component → String
  | .root => "/"
  | .current => "."
  | .parent => ".."
  | .name s => String.ofList s

lemma Component.text_ofPiece (x : List Char) : (ofPiece x).text = String.ofList x := by
  rw [ofPiece]
  split_ifs with h
  · subst h
    rfl
  · rfl

/-- Pieces that count are told by the texts of the components that they make. -/
lemma ofPieces_eq_of_texts_eq
    (h : (ofPieces xs).map Component.text = (ofPieces ys).map Component.text) :
    ofPieces xs = ofPieces ys := by
  simp only [ofPieces, List.map_map, Function.comp_def, Component.text_ofPiece] at h ⊢
  have hinjective : Function.Injective fun x : List Char => String.ofList x :=
    fun _ _ => String.ofList_injective
  rw [List.map_injective_iff.2 hinjective h]

end Path

namespace Factory

open Depot.Path (pieces ofPieces Component)

variable {f g : Factory} {p q : Path} {url : String} {used : Nat}

/-! ### URLs and paths -/

/-- A URL that leads to the directory at an absolute path. It begins with the scheme and ends in a
slash; between the slashes stand, encoded by octets, the components of the path below the root. -/
def LeadsTo (url : String) (p : Path) : Prop :=
  ∃ rest segments, url = "file:///" ++ String.ofList rest ∧ url.toList.getLast? = some '/' ∧
    pieces rest = segments ++ [[]] ∧
      segments.map Percent.decode = p.components.tail.map fun c => c.text.toUTF8.data.toList

lemma segment_of_mem_ofPieces {c : Component} {xs : List (List Char)} (h : c ∈ ofPieces xs) :
    segment c = some (Percent.encode c.text) := by
  obtain ⟨x, -, rfl⟩ := List.mem_map.1 h
  rw [Component.ofPiece]
  split_ifs
  · rfl
  · rfl

/-- The segments of the URL of an absolute path are its components below the root, encoded. -/
lemma segments_of_isAbsolute (h : p.isAbsolute = true) :
    p.components.filterMap segment = p.components.tail.map fun c => Percent.encode c.text := by
  rw [Path.components_of_isAbsolute h, List.filterMap_cons_none rfl, List.tail_cons]
  exact List.filterMap_eq_map_iff_forall_eq_some.2 fun c hc => segment_of_mem_ofPieces hc

lemma toList_directoryUrl (p : Path) : (directoryUrl p).toList =
    "file:///".toList ++ (p.components.filterMap segment).flatMap fun x => x ++ ['/'] :=
  String.toList_ofList

theorem leadsTo_directoryUrl (h : p.isAbsolute = true) : LeadsTo (directoryUrl p) p := by
  have hsegments := segments_of_isAbsolute h
  have hurl := toList_directoryUrl p
  generalize p.components.filterMap segment = segments at hsegments hurl
  have hslash : ∀ x ∈ segments, '/' ∉ x := by
    intro x hx
    rw [hsegments] at hx
    obtain ⟨c, -, rfl⟩ := List.mem_map.1 hx
    exact Percent.slash_notMem_encode c.text
  have hlast : (directoryUrl p).toList.getLast? = some '/' := by
    rw [hurl]
    rcases List.eq_nil_or_concat' segments with rfl | ⟨front, x, rfl⟩
    · decide
    · rw [List.flatMap_append, List.flatMap_singleton, ← List.append_assoc, ← List.append_assoc,
        List.getLast?_concat]
  have hdecode : segments.map Percent.decode =
      p.components.tail.map fun c => c.text.toUTF8.data.toList := by
    rw [hsegments, List.map_map]
    exact List.map_congr_left fun c _ => Percent.decode_encode c.text
  have hrest : directoryUrl p =
      "file:///" ++ String.ofList (segments.flatMap fun x => x ++ ['/']) := by
    apply String.toList_inj.1
    rw [hurl, String.toList_append]
    exact congrArg _ String.toList_ofList.symm
  exact ⟨_, segments, hrest, hlast, Path.pieces_flatMap_slash hslash, hdecode⟩

/-- Two absolute paths that one URL leads to are equivalent. -/
theorem LeadsTo.equiv (hp : LeadsTo url p) (hq : LeadsTo url q) (hpa : p.isAbsolute = true)
    (hqa : q.isAbsolute = true) : p.Equiv q := by
  obtain ⟨rest, segments, rfl, -, hpieces, hdecode⟩ := hp
  obtain ⟨rest', segments', hurl, -, hpieces', hdecode'⟩ := hq
  obtain rfl : rest = rest' := String.ofList_injective (String.append_right_inj _ |>.1 hurl)
  obtain rfl : segments = segments' := List.append_cancel_right (hpieces.symm.trans hpieces')
  rw [hdecode'] at hdecode
  rw [Path.components_of_isAbsolute hpa, Path.components_of_isAbsolute hqa, List.tail_cons,
    List.tail_cons] at hdecode
  have htexts : (ofPieces (pieces p.text.toList)).map Component.text =
      (ofPieces (pieces q.text.toList)).map Component.text := by
    have hinjective : Function.Injective fun t : String => t.toUTF8.data.toList :=
      fun _ _ => eq_of_octets_eq
    apply List.map_injective_iff.2 hinjective
    simpa only [List.map_map, Function.comp_def] using hdecode.symm
  rw [Path.Equiv, Path.components_of_isAbsolute hpa, Path.components_of_isAbsolute hqa,
    Path.ofPieces_eq_of_texts_eq htexts]

lemma directoryUrl_eq_iff (hp : p.isAbsolute = true) (hq : q.isAbsolute = true) :
    directoryUrl p = directoryUrl q ↔ p.Equiv q := by
  constructor
  · intro h
    have hleads := leadsTo_directoryUrl hq
    rw [← h] at hleads
    exact (leadsTo_directoryUrl hp).equiv hleads hp hq
  · intro h
    apply String.toList_inj.1
    rw [toList_directoryUrl, toList_directoryUrl, show p.components = q.components from h]

/-! ### The local repository -/

/-- A location below the base directory, unless it is absolute. -/
def resolve (f : Factory) (location : Path) : Path :=
  if location.isAbsolute then location else f.base.join location

lemma resolve_eq (f : Factory) (location : Path) : f.resolve location = f.base.join location := by
  rw [resolve]
  split_ifs with h
  · rw [Path.join_of_isAbsolute f.base h]
  · rfl

lemma isAbsolute_resolve_iff {location : Path} : (f.resolve location).isAbsolute = true ↔
    location.isAbsolute = true ∨ f.base.isAbsolute = true := by
  rw [resolve_eq, Path.isAbsolute_join_iff]

lemma mavenLocal_of_error {message : String} (h : f.locate used = .error message) :
    f.mavenLocal used = (.error (.localRepositoryUnavailable message), used + 1) := by
  rw [mavenLocal, h]
  rfl

lemma mavenLocal_of_relative {location : Path} (h : f.locate used = .ok location)
    (hrelative : ¬ (f.resolve location).isAbsolute = true) :
    (f.mavenLocal used).1 = .error (.localRepositoryUnavailable
      ("Local Maven repository location " ++ (f.resolve location).text ++
        " cannot be used as a URL")) := by
  rw [resolve_eq] at hrelative ⊢
  simp only [mavenLocal, h, localUrl, if_neg hrelative]
  rfl

lemma mavenLocal_of_absolute {location : Path} (h : f.locate used = .ok location)
    (habsolute : (f.resolve location).isAbsolute = true) :
    (f.mavenLocal used).1 =
      .ok { (f.maven used).1 with url := some (directoryUrl (f.resolve location)) } := by
  rw [resolve_eq] at habsolute ⊢
  simp only [mavenLocal, h, localUrl, if_pos habsolute]
  rfl

lemma exists_mavenLocal_iff {location : Path} (h : f.locate used = .ok location) :
    (∃ r, (f.mavenLocal used).1 = .ok r) ↔ (f.resolve location).isAbsolute = true := by
  by_cases habsolute : (f.resolve location).isAbsolute = true
  · simp [mavenLocal_of_absolute h habsolute, habsolute]
  · simp [mavenLocal_of_relative h habsolute, habsolute]

/-- The local repository of a factory. It cannot be built if nothing locates it, with the very
message of the locator, nor if the location and the base directory are both relative. Otherwise it
is a Maven repository at a URL that leads to the location, resolved against the base directory; and
two locations, of whatever factories, have the same URL exactly when they are resolved to equivalent
paths. -/
theorem mavenLocal_by_location (f : Factory) (used : Nat) :
    (∀ message, f.locate used = .error message →
      f.mavenLocal used = (.error (.localRepositoryUnavailable message), used + 1)) ∧
    (∀ location, f.locate used = .ok location →
      (location.isAbsolute = false ∧ f.base.isAbsolute = false →
        (f.mavenLocal used).1 = .error (.localRepositoryUnavailable
          ("Local Maven repository location " ++ (f.resolve location).text ++
            " cannot be used as a URL"))) ∧
      (location.isAbsolute = true ∨ f.base.isAbsolute = true → ∃ url,
        (f.mavenLocal used).1 = .ok { (f.maven used).1 with url := some url } ∧
          LeadsTo url (f.resolve location))) ∧
    ∀ (g : Factory) (used' : Nat) location location' r r',
      f.locate used = .ok location → g.locate used' = .ok location' →
      (f.mavenLocal used).1 = .ok r → (g.mavenLocal used').1 = .ok r' →
        (r.url = r'.url ↔ (f.resolve location).Equiv (g.resolve location')) := by
  refine ⟨fun message h => mavenLocal_of_error h, fun location h => ⟨?_, ?_⟩, ?_⟩
  · rintro ⟨hlocation, hbase⟩
    apply mavenLocal_of_relative h
    simp [isAbsolute_resolve_iff, hlocation, hbase]
  · intro hor
    have habsolute := isAbsolute_resolve_iff.2 hor
    exact ⟨_, mavenLocal_of_absolute h habsolute, leadsTo_directoryUrl habsolute⟩
  · intro g used' location location' r r' hf hg hr hr'
    have habsolute := (exists_mavenLocal_iff hf).1 ⟨r, hr⟩
    have habsolute' := (exists_mavenLocal_iff hg).1 ⟨r', hr'⟩
    rw [mavenLocal_of_absolute hf habsolute] at hr
    rw [mavenLocal_of_absolute hg habsolute'] at hr'
    cases hr
    cases hr'
    rw [Option.some.injEq, directoryUrl_eq_iff habsolute habsolute']

/-- A factory at a base directory that locates the local repository at the given place. -/
def locating (base : Path) (location : Except String Path) : Factory :=
  ⟨fun _ => location, base, fun _ => .empty, .numbered 0⟩

/-- A relative location and an absolute one with other slashes and dots, which lead to one
directory; a location that stays relative; and no location. -/
theorem mavenLocal_by_location_encoded :
    let location : Path := ⟨"./50%//a#b?/../é/."⟩
    let f := locating ⟨"/my work"⟩ (.ok location)
    let g := locating ⟨""⟩ (.ok ⟨"/my work/50%/./a#b?/../é"⟩)
    let url := "file:///my%20work/50%25/a%23b%3F/../%C3%A9/"
    ((∃ r, (f.mavenLocal 0).1 = .ok r ∧ r.url = some url) ∧ LeadsTo url (f.resolve location)) ∧
    (∃ r, (g.mavenLocal 3).1 = .ok r ∧ r.url = some url) ∧
    (locating ⟨"a"⟩ (.ok ⟨"b"⟩)).mavenLocal 0 =
      (.error (.localRepositoryUnavailable
        "Local Maven repository location a/b cannot be used as a URL"), 1) ∧
    (locating ⟨"/"⟩ (.error "none")).mavenLocal 0 =
      (.error (.localRepositoryUnavailable "none"), 1) := by
  intro location f g url
  obtain ⟨-, hf, hsame⟩ := mavenLocal_by_location f 0
  obtain ⟨-, hg, -⟩ := mavenLocal_by_location g 3
  have hresolve : f.resolve location = ⟨"/my work/./50%//a#b?/../é/."⟩ := by decide
  have hcomputed : directoryUrl ⟨"/my work/./50%//a#b?/../é/."⟩ =
      "file:///my%20work/50%25/a%23b%3F/../%C3%A9/" := by decide +kernel
  rw [← hresolve] at hcomputed
  obtain ⟨url', hfirst, hleads⟩ := (hf location rfl).2 (.inr (by decide))
  obtain ⟨url'', hsecond, -⟩ := (hg _ rfl).2 (.inl (by decide))
  have hurl : some url' = some (directoryUrl (f.resolve location)) :=
    congrArg (·.url) (Except.ok.inj (hfirst.symm.trans
      (mavenLocal_of_absolute rfl (by decide))))
  obtain rfl : url' = url := by rw [Option.some.inj hurl, hcomputed]
  have hequiv : (f.resolve location).Equiv (g.resolve ⟨"/my work/50%/./a#b?/../é"⟩) := by decide
  refine ⟨⟨⟨_, hfirst, rfl⟩, hleads⟩, ⟨_, hsecond, ?_⟩, ?_, ?_⟩
  · exact ((hsame g 3 _ _ _ _ rfl rfl hfirst hsecond).2 hequiv).symm
  · obtain ⟨-, hrelative, -⟩ := mavenLocal_by_location (locating ⟨"a"⟩ (.ok ⟨"b"⟩)) 0
    have hfailed := (hrelative _ rfl).1 (by decide)
    exact Prod.ext hfailed (by cbv)
  · exact (mavenLocal_by_location (locating ⟨"/"⟩ (.error "none")) 0).1 "none" rfl

end Factory

end Depot
