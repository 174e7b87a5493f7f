import Depot.Proofs.Path
import Depot.Proofs.Session.Index

/-!
# The list of directories

Whatever is done to a flat directory repository, its directories are pairwise different as paths:
one that is added is dropped if an equivalent one is there. So replacing the list leaves the first
of each class of equivalent paths, and the list is its own replacement if the base directory is
absolute (`FlatDirRepository.dirs_of_editAll`). All flat directory repositories of a factory come
about in this way (`Factory.Made.exists_edits`).
-/

namespace Depot

open Roster (Request)

namespace Path

variable {ps : List Path}

/-- The first path of each class of equivalent ones in a list, in their order. -/
def firsts : List Path → List Path
  | [] => []
  | p :: ps => p :: (firsts ps).filter fun q => ¬ p.Equiv q

/-- A list of paths of which no two are equivalent. -/
def Distinct (ps : List Path) : Prop :=
  ps.Pairwise fun p q => ¬ p.Equiv q

/-- Where no two paths are equivalent, each is the first of its class. -/
lemma Distinct.firsts_eq (h : Distinct ps) : firsts ps = ps := by
  induction ps with
  | nil => rfl
  | cons p ps ih =>
    obtain ⟨hp, hps⟩ := List.pairwise_cons.1 h
    rw [firsts, ih hps, List.filter_eq_self.2]
    intro q hq
    exact decide_eq_true (hp q hq)

end Path

open Depot.Path (firsts Distinct)

namespace FlatDirRepository

variable {r : FlatDirRepository} {ps ds : List Path} {p : Path}

/-! ### Adding a path to a list -/

lemma addPath_of_mem {d : Path} (hd : d ∈ ds) (h : d.Equiv p) : addPath ds p = ds :=
  if_pos (List.any_eq_true.2 ⟨d, hd, decide_eq_true h⟩)

lemma addPath_of_forall (h : ∀ d ∈ ds, ¬ d.Equiv p) : addPath ds p = ds ++ [p] := by
  apply if_neg
  rw [List.any_eq_true]
  rintro ⟨d, hd, hequiv⟩
  exact h d hd (of_decide_eq_true hequiv)

lemma distinct_addPath (h : Distinct ds) (p : Path) : Distinct (addPath ds p) := by
  by_cases hp : ∃ d ∈ ds, d.Equiv p
  · obtain ⟨d, hd, hequiv⟩ := hp
    rwa [addPath_of_mem hd hequiv]
  · push Not at hp
    rw [addPath_of_forall hp, Distinct, List.pairwise_append]
    exact ⟨h, List.pairwise_singleton _ _, by simpa using hp⟩

/-- Of paths that are added one after another, the first of each class stay that are not equivalent
to one that was there before. -/
lemma foldl_addPath (ds ps : List Path) : ps.foldl addPath ds =
    ds ++ (firsts ps).filter fun p => ∀ d ∈ ds, ¬ d.Equiv p := by
  induction ps generalizing ds with
  | nil => simp [firsts]
  | cons p ps ih =>
    rw [List.foldl_cons, ih]
    by_cases hp : ∃ d ∈ ds, d.Equiv p
    · obtain ⟨d, hd, hequiv⟩ := hp
      have hnot : ¬ ∀ d ∈ ds, ¬ d.Equiv p := fun h => h d hd hequiv
      rw [addPath_of_mem hd hequiv, firsts, List.filter_cons_of_neg (by simpa using hnot),
        List.filter_filter]
      congr 1
      apply List.filter_congr
      intro q _
      -- A path that `p` drops is dropped by `d` as well.
      have himp : (∀ d ∈ ds, ¬ d.Equiv q) → ¬ p.Equiv q :=
        fun h hpq => h d hd (hequiv.trans hpq)
      simpa using himp
    · push Not at hp
      rw [addPath_of_forall hp, firsts, List.filter_cons_of_pos (by simpa using hp),
        List.filter_filter, List.append_assoc, List.singleton_append]
      congr 2
      apply List.filter_congr
      intro q _
      simp only [List.forall_mem_append, List.forall_mem_singleton, Bool.decide_and]

/-! ### Operations -/

/-- What can be done to a flat directory repository. -/
inductive Edit where
  | name (name : String)
  | dir (p : Path)
  | setDirs (ps : List Path)
  | setProperty (property : String) (value : Json)

/-- Does one thing to a repository; an assignment that fails does nothing. -/
def edit (r : FlatDirRepository) : Edit → FlatDirRepository
  | .name name => { r with name }
  | .dir p => r.dir p
  | .setDirs ps => r.setDirs ps
  | .setProperty property value =>
    match setProperty r property value with
    | .ok t => t
    | .error _ => r

/-- Does one thing after another. -/
def editAll (r : FlatDirRepository) (edits : List Edit) : FlatDirRepository :=
  edits.foldl edit r

lemma addDirs_eq_foldl (r : FlatDirRepository) (ps : List Path) :
    r.addDirs ps = { r with dirs := (ps.map r.base.join).foldl addPath r.dirs } := by
  induction ps generalizing r with
  | nil => rfl
  | cons p ps ih => exact ih (r.dir p)

lemma setDirs_eq_firsts (r : FlatDirRepository) (ps : List Path) :
    r.setDirs ps = { r with dirs := firsts (ps.map r.base.join) } := by
  rw [setDirs, addDirs_eq_foldl, foldl_addPath]
  simp

/-- What an edit makes of a repository: the name is another one, or some paths are added to its
directories or to none. -/
lemma edit_cases (r : FlatDirRepository) (e : Edit) :
    (∃ name, r.edit e = { r with name }) ∨ (∃ ps, r.edit e = r.addDirs ps) ∨
      ∃ ps, r.edit e = r.setDirs ps := by
  cases e with
  | name name => exact .inl ⟨name, rfl⟩
  | dir p => exact .inr (.inl ⟨[p], rfl⟩)
  | setDirs ps => exact .inr (.inr ⟨ps, rfl⟩)
  | setProperty property value =>
    rw [edit]
    cases h : setProperty r property value with
    | error e => exact .inl ⟨r.name, rfl⟩
    | ok t =>
      cases assign_eq_ok_iff.1 (mapError_eq_ok.1 h) with
      | name s => exact .inl ⟨s, rfl⟩
      | dirs _ => exact .inr (.inr ⟨_, rfl⟩)
      | dir _ => exact .inr (.inl ⟨_, rfl⟩)

/-! ### The invariant -/

/-- What is true of a flat directory repository at a base directory, at any time. -/
structure Sound (r : FlatDirRepository) (base : Path) : Prop where
  base_eq : r.base = base
  distinct : Distinct r.dirs
  absolute : base.isAbsolute = true → ∀ d ∈ r.dirs, d.isAbsolute = true

variable {base : Path}

lemma Sound.dir (h : r.Sound base) (p : Path) : (r.dir p).Sound base where
  base_eq := h.base_eq
  distinct := distinct_addPath h.distinct _
  absolute hbase := by
    obtain rfl := h.base_eq
    exact (anchored_dir ⟨hbase, h.absolute hbase⟩ p).2

lemma Sound.addDirs (h : r.Sound base) (ps : List Path) : (r.addDirs ps).Sound base := by
  induction ps generalizing r with
  | nil => exact h
  | cons p ps ih => exact ih (h.dir p)

lemma Sound.setDirs (h : r.Sound base) (ps : List Path) : (r.setDirs ps).Sound base :=
  addDirs (r := { r with dirs := [] }) ⟨h.base_eq, .nil, nofun⟩ ps

lemma Sound.edit (h : r.Sound base) (e : Edit) : (r.edit e).Sound base := by
  rcases edit_cases r e with ⟨name, heq⟩ | ⟨ps, heq⟩ | ⟨ps, heq⟩
  · rw [heq]
    exact ⟨h.base_eq, h.distinct, h.absolute⟩
  · rw [heq]
    exact h.addDirs ps
  · rw [heq]
    exact h.setDirs ps

lemma Sound.editAll (h : r.Sound base) (edits : List Edit) : (r.editAll edits).Sound base := by
  induction edits generalizing r with
  | nil => exact h
  | cons e edits ih => exact ih (h.edit e)

lemma sound_fresh (base : Path) (transport : Handle) : (fresh base transport).Sound base :=
  ⟨rfl, .nil, nofun⟩

/-- Absolute directories are themselves below any base directory. -/
lemma map_join_of_isAbsolute (h : ∀ d ∈ ds, d.isAbsolute = true) (base : Path) :
    ds.map base.join = ds := by
  conv_rhs => rw [← List.map_id ds]
  exact List.map_congr_left fun d hd => Path.join_of_isAbsolute base (h d hd)

/-- The directories of a repository, after whatever was done to it. No two of them are equivalent.
Replacing them by other paths leaves exactly these, resolved against the base directory, without
those that are equivalent to one before them. A path is added at the end if none that is equivalent
is there, and otherwise nothing happens. Below an absolute base directory all are absolute, and
replacing them by themselves does nothing. Equivalent paths are those whose pieces are the same, but
for idle ones; a dot in front of a relative path counts. -/
theorem dirs_of_editAll (base : Path) (transport : Handle) (edits : List Edit) :
    let r := (fresh base transport).editAll edits
    r.dirs.Pairwise (fun p q => ¬ p.Equiv q) ∧
    (∀ ps, r.setDirs ps = { r with dirs := firsts (ps.map base.join) }) ∧
    (∀ p, ((∀ d ∈ r.dirs, ¬ d.Equiv (base.join p)) →
        r.dir p = { r with dirs := r.dirs ++ [base.join p] }) ∧
      ((∃ d ∈ r.dirs, d.Equiv (base.join p)) → r.dir p = r)) ∧
    (base.isAbsolute = true → (∀ d ∈ r.dirs, d.isAbsolute = true) ∧ r.setDirs r.dirs = r) ∧
    ∀ p q : Path, p.Equiv q ↔ p.isAbsolute = q.isAbsolute ∧ p.counted = q.counted ∧
      (p.isAbsolute = false → p.isDotted = q.isDotted) := by
  intro r
  obtain ⟨hbase, hdistinct, habsolute⟩ := (sound_fresh base transport).editAll edits
  have hset (ps : List Path) : r.setDirs ps = { r with dirs := firsts (ps.map base.join) } := by
    rw [setDirs_eq_firsts, show r.base = base from hbase]
  refine ⟨hdistinct, hset, fun p => ⟨fun h => ?_, ?_⟩, fun h => ⟨habsolute h, ?_⟩,
    fun p q => Path.equiv_iff⟩
  · rw [dir, show r.base = base from hbase, addPath_of_forall h]
  · rintro ⟨d, hd, hequiv⟩
    rw [← show r.base = base from hbase] at hequiv
    rw [dir, addPath_of_mem hd hequiv]
  · rw [hset, map_join_of_isAbsolute (habsolute h), Distinct.firsts_eq hdistinct]

/-- Spellings of one directory, a truth value, which fails, and an absolute path. -/
theorem dirs_of_editAll_spellings :
    let edits := [.dir ⟨"a"⟩, .setProperty "dir" (Json.ofStrings ["./a/", "b//c"]),
      .setProperty "dirs" (.bool true), .setDirs [⟨"b/./c/"⟩, ⟨"/work/b/c"⟩, ⟨"a"⟩], .name "n",
      .dir ⟨"/work//a/."⟩]
    let r := (fresh ⟨"/work"⟩ 0).editAll edits
    r.dirs = [⟨"/work/b/./c/"⟩, ⟨"/work/a"⟩] ∧ r.setDirs r.dirs = r ∧
      r.dir ⟨"a/./"⟩ = r ∧ r.dir ⟨".."⟩ = { r with dirs := r.dirs ++ [⟨"/work/.."⟩] } := by
  intro edits r
  have hdirs : r.dirs = [⟨"/work/b/./c/"⟩, ⟨"/work/a"⟩] := by decide
  obtain ⟨-, -, hdir, hall, -⟩ := dirs_of_editAll ⟨"/work"⟩ 0 edits
  refine ⟨hdirs, (hall (by decide)).2, (hdir _).2 ?_, (hdir _).1 ?_⟩
  · exact ⟨⟨"/work/a"⟩, by decide, by decide⟩
  · decide

end FlatDirRepository

/-! ### All repositories of a factory -/

/-- A flat directory repository that edits make of an empty one, unless it is of another kind. -/
def Repository.Edited (base : Path) (transport : Handle) : Repository → Prop
  | .flatDir r => ∃ edits, r = (FlatDirRepository.fresh base transport).editAll edits
  | .maven _ | .ivy _ | .custom _ => True

namespace Repository

variable {r t : Repository} {base : Path} {transport : Handle} {p : String} {v : Json}
  {es : List (String × Json)}

lemma edited_edit {r : FlatDirRepository} (h : (flatDir r).Edited base transport)
    (e : FlatDirRepository.Edit) : (flatDir (r.edit e)).Edited base transport := by
  obtain ⟨edits, rfl⟩ := h
  exact ⟨edits ++ [e], by simp [FlatDirRepository.editAll]⟩

lemma Edited.withName (h : r.Edited base transport) (name : String) :
    (r.withName name).Edited base transport := by
  cases r with
  | flatDir r => exact edited_edit h (.name name)
  | maven | ivy | custom => trivial

lemma Assigned.edited (h : r.Assigned p v t) (hr : r.Edited base transport) :
    t.Edited base transport := by
  cases h with
  | maven | ivy => trivial
  | @flatDir r t _ _ h =>
    have hset : setProperty r p v = .ok t :=
      mapError_eq_ok.2 (FlatDirRepository.assign_eq_ok_iff.2 h)
    have hedit : r.edit (.setProperty p v) = t := by rw [FlatDirRepository.edit, hset]
    rw [← hedit]
    exact edited_edit hr _

lemma AssignedAll.edited (h : r.AssignedAll es t) (hr : r.Edited base transport) :
    t.Edited base transport := by
  induction h with
  | nil => exact hr
  | cons h _ ih => exact ih (h.edited hr)

lemma edited_of_change? {c : Change} (h : r.change? c = some t) (hr : r.Edited base transport) :
    t.Edited base transport := by
  cases r with
  | flatDir r =>
    obtain ⟨t, ht, rfl⟩ := Option.map_eq_some_iff.1 h
    cases c <;> cases ht
    · exact edited_edit hr (.name _)
    · exact edited_edit hr (.dir _)
    · exact edited_edit hr (.setDirs _)
  | maven r =>
    obtain ⟨t, -, rfl⟩ := Option.map_eq_some_iff.1 h
    trivial
  | ivy r =>
    obtain ⟨t, -, rfl⟩ := Option.map_eq_some_iff.1 h
    trivial
  | custom r =>
    cases c <;> cases h
    trivial

end Repository

namespace Roster

variable {f : Factory} {used : Nat} {r : Repository}

lemma Shorthand.edited_of_blank {w : Shorthand} (h : w.blank f used = .ok r) :
    r.Edited f.base f.infrastructure.transport := by
  cases w with
  | flatDir =>
    cases h
    exact ⟨[], rfl⟩
  | mavenLocal =>
    obtain ⟨r, -, rfl⟩ := map_eq_ok.1 h
    trivial
  | mavenCentral | maven | ivy =>
    cases h
    trivial

lemma Request.edited_of_result {q : Request} (hq : ∀ r, q ≠ .existing r)
    (h : (q.result f used).1 = .ok r) : r.Edited f.base f.infrastructure.transport := by
  cases q with
  | build w m =>
    obtain ⟨blank, hblank, hall⟩ := Shorthand.build_eq_ok_iff.1 h
    exact hall.edited (Shorthand.edited_of_blank hblank)
  | existing r => exact absurd rfl (hq r)
  | resolver name =>
    cases h
    trivial
  | refused e => cases h

end Roster

namespace Factory

variable {f : Factory} {r : Repository}

lemma edited_of_build {b : Blueprint} {used : Nat} (h : (f.build b used).1 = .ok r) :
    r.Edited f.base f.infrastructure.transport := by
  cases b with
  | flatDir =>
    cases h
    exact ⟨[], rfl⟩
  | mavenLocal =>
    obtain ⟨r, -, rfl⟩ := map_eq_ok.1 h
    trivial
  | maven | mavenCentral | ivy =>
    cases h
    trivial

lemma Made.edited (h : f.Made r) : r.Edited f.base f.infrastructure.transport := by
  induction h with
  | built h => exact edited_of_build h
  | created hdraft h =>
    rw [Roster.create_eq] at h
    exact Request.edited_of_result (Request.ofDraft_ne_existing hdraft) h
  | declared hop h =>
    obtain ⟨built, hbuilt, hsettled, -⟩ := Roster.run_eq_ok (Prod.ext h rfl)
    rw [hsettled.eq_withName]
    exact (Request.edited_of_result (Roster.Operation.request_ne_existing hop) hbuilt).withName _
  | assigned _ h ih =>
    have hset := (Repository.setProperty?_eq_some h).symm
    exact (Repository.setProperty_eq_ok_iff.1 hset).edited ih
  | @configured r t m e? _ h ih =>
    have hrun : configureEntries r m.entries = (t, e?) := (Repository.configure?_eq_some h).symm
    -- An early end keeps the entries before it.
    rcases Repository.configureEntries_spec r m.entries with ⟨u, hu, hall⟩ | ⟨u, e, hu, hstop⟩
    · rw [hrun] at hu
      cases hu
      exact hall.edited ih
    · rw [hrun] at hu
      cases hu
      cases hstop with
      | «at» reason hes hbefore hnot => exact hbefore.edited ih
  | changed _ h ih => exact Repository.edited_of_change? h ih

/-- Every flat directory repository that came about within a factory is an empty one at the base
directory of the factory to which something was done. -/
theorem Made.exists_edits {r : FlatDirRepository} (h : f.Made (.flatDir r)) : ∃ edits,
    r = (FlatDirRepository.fresh f.base f.infrastructure.transport).editAll edits :=
  h.edited

end Factory

end Depot
