import Depot.Proofs.Path
import Depot.Proofs.Roster.Request

/-!
# Equivalent base directories

A factory whose base directory is another path for the same directory declares the same things: the
same entries fail in the same way, the names are the same, and so are the repositories, but for the
texts of the paths in them (`Roster.Alike`). Directories that are left out because an equivalent one
is there are the same ones, and the URL of the local repository is made of components only.
-/

namespace Depot

/-! ### Repositories -/

/-- Flat directory repositories that differ in the texts of their paths at most. -/
structure FlatDirRepository.Alike (r t : FlatDirRepository) : Prop where
  name : t.name = r.name
  transport : t.transport = r.transport
  base : r.base.Equiv t.base
  dirs : List.Forall₂ Path.Equiv r.dirs t.dirs

/-- Repositories that differ in the texts of their paths at most. -/
inductive Repository.Alike : Repository → Repository → Prop where
  | flatDir {r t : FlatDirRepository} (h : r.Alike t) : Alike (.flatDir r) (.flatDir t)
  | same (r : Repository) : Alike r r

namespace FlatDirRepository

variable {r t : FlatDirRepository} {ds ds' : List Path} {p q : Path}

lemma any_equiv_eq (hds : List.Forall₂ Path.Equiv ds ds') (h : p.Equiv q) :
    (ds.any fun d => decide (d.Equiv p)) = ds'.any fun d => decide (d.Equiv q) := by
  induction hds with
  | nil => rfl
  | @cons d d' _ _ hd _ ih =>
    have hiff : d.Equiv p ↔ d'.Equiv q :=
      ⟨fun hp => hd.symm.trans (hp.trans h), fun hq => hd.trans (hq.trans h.symm)⟩
    simp only [List.any_cons, ih, hiff]

lemma forall₂_addPath (hds : List.Forall₂ Path.Equiv ds ds') (h : p.Equiv q) :
    List.Forall₂ Path.Equiv (addPath ds p) (addPath ds' q) := by
  rw [addPath, addPath, any_equiv_eq hds h]
  split_ifs
  · exact hds
  · exact List.rel_append hds (.cons h .nil)

lemma Alike.dir (h : r.Alike t) (p : Path) : (r.dir p).Alike (t.dir p) where
  name := h.name
  transport := h.transport
  base := h.base
  dirs := forall₂_addPath h.dirs (h.base.join p)

lemma Alike.addDirs (h : r.Alike t) (ps : List Path) : (r.addDirs ps).Alike (t.addDirs ps) := by
  induction ps generalizing r t with
  | nil => exact h
  | cons p ps ih => exact ih (h.dir p)

lemma Alike.setDirs (h : r.Alike t) (ps : List Path) : (r.setDirs ps).Alike (t.setDirs ps) :=
  addDirs (r := { r with dirs := [] }) (t := { t with dirs := [] })
    ⟨h.name, h.transport, h.base, .nil⟩ ps

lemma Alike.displayName_eq (h : r.Alike t) : t.displayName = r.displayName := by
  unfold displayName
  rw [h.name]

lemma Alike.assign (h : r.Alike t) (p : String) (v : Json) :
    Agree Alike (r.assign p v) (t.assign p v) := by
  unfold FlatDirRepository.assign
  split
  · exact (Agree.refl (fun _ => rfl) v.expectString).bind fun s _ hs =>
      .ok ⟨hs.symm, h.transport, h.base, h.dirs⟩
  · refine (Agree.refl (fun _ => rfl) v.expectStrings).bind ?_
    rintro ss _ rfl
    exact .ok (h.setDirs _)
  · refine (Agree.refl (fun _ => rfl) v.expectStrings).bind ?_
    rintro ss _ rfl
    exact .ok (h.addDirs _)
  · exact .error _

end FlatDirRepository

namespace Repository

variable {r t : Repository}

lemma Alike.name_eq (h : r.Alike t) : t.name = r.name := by
  cases h with
  | flatDir h => exact h.name
  | same => rfl

lemma Alike.withName (h : r.Alike t) (name : String) :
    (r.withName name).Alike (t.withName name) := by
  cases h with
  | flatDir h => exact .flatDir ⟨rfl, h.transport, h.base, h.dirs⟩
  | same => exact .same _

lemma Alike.displayName_eq (h : r.Alike t) : t.displayName = r.displayName := by
  cases h with
  | flatDir h => exact h.displayName_eq
  | same => rfl

lemma Alike.assign (h : r.Alike t) (p : String) (v : Json) :
    Agree Alike (r.assign p v) (t.assign p v) := by
  cases h with
  | flatDir h => exact (h.assign p v).map fun _ _ => .flatDir
  | same => exact .refl .same _

lemma Alike.setProperty (h : r.Alike t) (p : String) (v : Json) :
    Agree Alike (setProperty r p v) (setProperty t p v) := by
  have hdisplay : Configurable.displayName t = Configurable.displayName r := h.displayName_eq
  rw [Depot.setProperty, Depot.setProperty, hdisplay]
  exact (h.assign p v).mapError _

lemma Alike.configureEntries (h : r.Alike t) (es : List (String × Json)) :
    (configureEntries r es).1.Alike (configureEntries t es).1 ∧
      (configureEntries r es).2 = (configureEntries t es).2 := by
  induction es generalizing r t with
  | nil => exact ⟨h, rfl⟩
  | cons e es ih =>
    obtain ⟨p, v⟩ := e
    have hset := h.setProperty p v
    rw [Depot.configureEntries, Depot.configureEntries]
    generalize Depot.setProperty r p v = x at hset
    generalize Depot.setProperty t p v = y at hset
    cases hset with
    | ok h => exact ih h
    | error e => exact ⟨h, rfl⟩

lemma Alike.configured (h : r.Alike t) (m : Properties) :
    Agree Alike (configured r m) (configured t m) := by
  obtain ⟨halike, herror⟩ := h.configureEntries m.entries
  rw [Depot.configured, Depot.configured, configure, configure]
  generalize Depot.configureEntries r m.entries = x at halike herror
  generalize Depot.configureEntries t m.entries = y at halike herror
  obtain ⟨u, e⟩ := x
  obtain ⟨u', e'⟩ := y
  obtain rfl : e = e' := herror
  cases e with
  | none => exact .ok halike
  | some e => exact .error e

end Repository

namespace Factory

variable {f : Factory} {b : Path}

/-- A factory with another base directory. -/
def rebase (f : Factory) (b : Path) : Factory :=
  { f with base := b }

lemma directoryUrl_congr {p q : Path} (h : p.Equiv q) : directoryUrl p = directoryUrl q := by
  unfold directoryUrl
  rw [show p.components = q.components from h]

/-- The URL of the local repository does not depend on how the base directory is written. -/
lemma mavenLocal_rebase (hbase : f.base.isAbsolute = true) (hb : f.base.Equiv b) (used : Nat) :
    (f.rebase b).mavenLocal used = f.mavenLocal used := by
  have hurl : ∀ location, (f.rebase b).localUrl location = f.localUrl location := by
    intro location
    have hlocation := hb.join location
    have habsolute := Path.isAbsolute_join hbase location
    have habsolute' := hlocation.isAbsolute_eq.symm.trans habsolute
    unfold localUrl
    dsimp only [rebase]
    rw [if_pos habsolute, if_pos habsolute', directoryUrl_congr hlocation]
  have hlocate : (f.rebase b).locate = f.locate := rfl
  have hmaven : (f.rebase b).maven used = f.maven used := rfl
  rw [mavenLocal, mavenLocal, hlocate, hmaven]
  simp only [hurl]

end Factory

namespace Roster

variable {f : Factory} {b : Path} {s t : Roster} {r u : Repository} {explicit : Bool}

/-- Rosters that differ in the texts of paths at most. -/
structure Alike (s t : Roster) : Prop where
  used : t.used = s.used
  declared : List.Forall₂ Repository.Alike s.declared t.declared

/-! ### Entering -/

lemma Alike.names_eq (h : s.Alike t) : t.names = s.names := by
  have hdeclared := h.declared
  rw [names, names]
  generalize s.declared = rs at hdeclared
  generalize t.declared = ts at hdeclared
  induction hdeclared with
  | nil => rfl
  | cons hr _ ih => rw [List.map_cons, List.map_cons, hr.name_eq, ih]

lemma Alike.push (h : s.Alike t) (hr : r.Alike u) : (s.push r).Alike (t.push u) where
  used := h.used
  declared := List.rel_append h.declared (.cons hr .nil)

lemma LeastFree.of_names_eq {base : String} {n : Nat} (h : s.LeastFree base n)
    (hnames : t.names = s.names) : t.LeastFree base n where
  two_le := h.two_le
  free := hnames ▸ h.free
  least := hnames ▸ h.least

lemma Settled.alike {r' : Repository} (h : s.Settled r explicit u) (hs : s.Alike t)
    (hr : r.Alike r') : ∃ u', t.Settled r' explicit u' ∧ u.Alike u' := by
  have hnames := hs.names_eq
  have hname := hr.name_eq
  cases h with
  | kept h => exact ⟨r', .kept (by rwa [hname, hnames]), hr⟩
  | @renamed n hexplicit h hn =>
    refine ⟨r'.withName (numbered r'.name n), .renamed hexplicit ?_ ?_, ?_⟩
    · rwa [hname, hnames]
    · rw [hname]
      exact hn.of_names_eq hnames
    · rw [hname]
      exact hr.withName _

/-- Two declarations with the same answer, and rosters afterwards, that differ in the texts of paths
at most. -/
def DeclareAlike (o o' : Except Failure Repository × Roster) : Prop :=
  Agree Repository.Alike o.1 o'.1 ∧ o.2.Alike o'.2

lemma Alike.enter {r' : Repository} (hs : s.Alike t) (hr : r.Alike r') (explicit : Bool) :
    DeclareAlike (s.enter r explicit) (t.enter r' explicit) := by
  cases h : s.enter r explicit with
  | mk result s' =>
    cases result with
    | ok u =>
      obtain ⟨hsettled, rfl⟩ := enter_eq_ok_iff.1 h
      obtain ⟨u', hsettled', hu⟩ := hsettled.alike hs hr
      rw [enter_eq_ok_iff.2 ⟨hsettled', rfl⟩]
      exact ⟨.ok hu, hs.push hu⟩
    | error e =>
      obtain ⟨⟨hexplicit, htaken⟩, rfl, rfl⟩ := enter_eq_error_iff.1 h
      have htaken' : r'.name ∈ t.names := by rwa [hr.name_eq, hs.names_eq]
      rw [enter_eq_error_iff.2 ⟨⟨hexplicit, htaken'⟩, rfl, rfl⟩, hr.name_eq]
      exact ⟨.error _, hs⟩

lemma Alike.enterResult {x y : Except Failure Repository} (hs : s.Alike t)
    (h : Agree Repository.Alike x y) (explicit : Bool) (used : Nat) :
    DeclareAlike (s.enterResult explicit (x, used)) (t.enterResult explicit (y, used)) := by
  cases h with
  | ok hr => exact enter (s := { s with used }) (t := { t with used }) ⟨rfl, hs.declared⟩ hr _
  | error e => exact ⟨.error e, rfl, hs.declared⟩

/-! ### Declaring -/

section

variable (hbase : f.base.isAbsolute = true) (hb : f.base.Equiv b)
include hbase hb

lemma Shorthand.blank_rebase (w : Shorthand) (used : Nat) :
    Agree Repository.Alike (w.blank f used) (w.blank (f.rebase b) used) := by
  cases w with
  | flatDir => exact .ok (.flatDir ⟨rfl, rfl, hb, .nil⟩)
  | mavenLocal =>
    rw [blank, blank, Factory.mavenLocal_rebase hbase hb]
    exact .refl .same _
  | mavenCentral | maven | ivy => exact .ok (.same _)

lemma Request.result_rebase (q : Request) (used : Nat) :
    Agree Repository.Alike (q.result f used).1 (q.result (f.rebase b) used).1 ∧
      (q.result f used).2 = (q.result (f.rebase b) used).2 := by
  cases q with
  | build w m =>
    exact ⟨(w.blank_rebase hbase hb used).bind fun _ _ h => h.configured m, rfl⟩
  | existing r => exact ⟨.ok (.same r), rfl⟩
  | resolver name => exact ⟨.ok (.same _), rfl⟩
  | refused e => exact ⟨.error e, rfl⟩

lemma Alike.declare (hs : s.Alike t) (entry : Json) :
    DeclareAlike (s.declare f entry) (t.declare (f.rebase b) entry) := by
  obtain ⟨hresult, hused⟩ := (Request.ofEntry entry).result_rebase hbase hb s.used
  rw [declare_eq, declare_eq, Request.run, Request.run, hs.used]
  generalize (Request.ofEntry entry).result f s.used = x at hresult hused ⊢
  generalize (Request.ofEntry entry).result (f.rebase b) s.used = y at hresult hused ⊢
  obtain ⟨x, n⟩ := x
  obtain ⟨y, n'⟩ := y
  obtain rfl : n = n' := hused
  exact hs.enterResult hresult _ n

/-- Declaring entries ends in the same way below equivalent base directories. -/
theorem Alike.declareAll (hs : s.Alike t) (entries : List Json) :
    (declareAll f entries s).1 = (declareAll (f.rebase b) entries t).1 ∧
      (declareAll f entries s).2.Alike (declareAll (f.rebase b) entries t).2 := by
  induction entries generalizing s t with
  | nil => exact ⟨rfl, hs⟩
  | cons entry entries ih =>
    obtain ⟨hanswer, hroster⟩ := hs.declare hbase hb entry
    rw [Roster.declareAll, Roster.declareAll]
    generalize s.declare f entry = o at hanswer hroster
    generalize t.declare (f.rebase b) entry = o' at hanswer hroster
    obtain ⟨x, s'⟩ := o
    obtain ⟨y, t'⟩ := o'
    cases hanswer with
    | ok => exact ih hroster
    | error e => exact ⟨rfl, hroster⟩

end

end Roster

end Depot
