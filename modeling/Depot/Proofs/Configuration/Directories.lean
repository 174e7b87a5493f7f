import Depot.Proofs.Configuration.Fields

/-!
# Directories of a configured repository

What a property map makes of the directories of a flat directory repository. The key `dir` has its
turn before `dirs`, as the lesser one: directories that it adds are there afterwards, unless the map
has `dirs` as well, which starts anew (`dirs_of_configure`).
-/

namespace Depot

namespace FlatDirRepository

variable {r s t u : FlatDirRepository} {m : Properties} {es rest : List (String × Json)}
  {p : String} {v : Json} {base d q : Path} {dirs new : List Path} {ss : List String}

/-! ### Adding directories -/

/-- Directories with more of them added one after another, each resolved against the base. -/
def added (base : Path) (dirs : List Path) (ss : List String) : List Path :=
  ss.foldl (fun dirs d => addPath dirs (base.join ⟨d⟩)) dirs

lemma dirs_addDirs (r : FlatDirRepository) (ss : List String) :
    (r.addDirs (ss.map Path.mk)).dirs = added r.base r.dirs ss := by
  induction ss generalizing r with
  | nil => rfl
  | cons d rest ih => exact ih (r.dir ⟨d⟩)

lemma dirs_setDirs (r : FlatDirRepository) (ss : List String) :
    (r.setDirs (ss.map Path.mk)).dirs = added r.base [] ss :=
  dirs_addDirs { r with dirs := [] } ss

lemma mem_addPath_of_mem (h : d ∈ dirs) (q : Path) : d ∈ addPath dirs q := by
  rw [addPath]
  split_ifs
  · exact h
  · exact List.mem_append_left _ h

lemma exists_equiv_addPath (dirs : List Path) (q : Path) : ∃ d ∈ addPath dirs q, d.Equiv q := by
  rw [addPath]
  split_ifs with h
  · obtain ⟨d, hd, hequiv⟩ := List.any_eq_true.1 h
    exact ⟨d, hd, of_decide_eq_true hequiv⟩
  · exact ⟨q, List.mem_append_right _ (List.mem_singleton_self q), Path.Equiv.refl q⟩

lemma mem_added_of_mem (h : d ∈ dirs) (base : Path) (ss : List String) : d ∈ added base dirs ss := by
  induction ss generalizing dirs with
  | nil => exact h
  | cons s rest ih => exact ih (mem_addPath_of_mem h _)

lemma exists_equiv_added {s : String} (h : s ∈ ss) (base : Path) (dirs : List Path) :
    ∃ d ∈ added base dirs ss, d.Equiv (base.join ⟨s⟩) := by
  induction ss generalizing dirs with
  | nil => cases h
  | cons s' rest ih =>
    rcases List.mem_cons.1 h with rfl | h
    · obtain ⟨d, hd, hequiv⟩ := exists_equiv_addPath dirs (base.join ⟨s⟩)
      exact ⟨d, mem_added_of_mem hd base rest, hequiv⟩
    · exact ih h _

/-! ### Fields -/

/-- The value lists directories that are added to those that are there. -/
def AddsDirs (base : Path) (old : List Path) (v : Json) (new : List Path) : Prop :=
  ∃ ss, v.Lists ss ∧ new = added base old ss

/-- What some entries make of a flat directory repository. -/
structure Configured (r : FlatDirRepository) (es : List (String × Json)) (t : FlatDirRepository) :
    Prop where
  name : Sets es "name" Json.IsString r.name t.name
  dirs : SetsInTurn es "dir" "dirs" (AddsDirs r.base) (fun _ => AddsDirs r.base []) r.dirs t.dirs
  base : t.base = r.base
  transport : t.transport = r.transport

lemma configured_setDirs (h : v.Lists ss) :
    r.Configured [("dirs", v)] (r.setDirs (ss.map Path.mk)) where
  name := by simp [name_setDirs]
  dirs := by
    rw [dirs_setDirs]
    exact ⟨r.dirs, by simp, by simpa using ⟨ss, h, rfl⟩⟩
  base := by rw [setDirs, addDirs_eq]
  transport := by rw [setDirs, addDirs_eq]

lemma configured_addDirs (h : v.Lists ss) :
    r.Configured [("dir", v)] (r.addDirs (ss.map Path.mk)) where
  name := by simp [name_addDirs]
  dirs := by
    rw [dirs_addDirs]
    exact ⟨_, by simpa using ⟨ss, h, rfl⟩, by simp⟩
  base := by rw [addDirs_eq]
  transport := by rw [addDirs_eq]

lemma Assigned.configured (h : r.Assigned p v t) : r.Configured [(p, v)] t := by
  cases h with
  | name s => constructor <;> simp [SetsInTurn, Json.IsString]
  | dirs h => exact configured_setDirs h
  | dir h => exact configured_addDirs h

lemma Configured.cons (hhead : r.Configured [(p, v)] s) (hrest : s.Configured rest t)
    (hp : ∀ e ∈ rest, p < e.1) : r.Configured ((p, v) :: rest) t where
  name := hhead.name.cons hrest.name hp
  dirs := by
    have hrest := hrest.dirs
    rw [hhead.base] at hrest
    exact hhead.dirs.cons (by decide) hrest hp
  base := hrest.base.trans hhead.base
  transport := hrest.transport.trans hhead.transport

lemma configured_of_configure (h : configure r m = (t, none)) : r.Configured m.entries t :=
  of_configureEntries (fun _ => ⟨rfl, setsInTurn_nil _, rfl, rfl⟩)
    (fun _ _ _ _ h => (assign_eq_ok_iff.1 h).configured)
    (fun _ _ _ _ _ _ hhead hrest hp => hhead.cons hrest hp) h m.ordered

/-! ### No directory is lost, or one is -/

/-- A repository that has a directory, under whatever equivalent path. -/
def Has (r : FlatDirRepository) (s : String) : Prop :=
  ∃ d ∈ r.dirs, d.Equiv (r.base.join ⟨s⟩)

/-- The directories of a flat directory repository after a map was applied to it. Those under `dirs`
are all there, in the place of the old ones and of those under `dir`. Without `dirs` those under
`dir` are all there, behind the old ones. -/
theorem dirs_of_configure (h : configure r m = (t, none)) :
    (∀ v, m.get? "dirs" = some v → ∃ ss, v.Lists ss ∧
      t.dirs = (r.setDirs (ss.map Path.mk)).dirs ∧ ∀ s ∈ ss, t.Has s) ∧
    (m.get? "dirs" = none → ∀ v, m.get? "dir" = some v → ∃ ss, v.Lists ss ∧
      t.dirs = (r.addDirs (ss.map Path.mk)).dirs ∧ ∀ s ∈ ss, t.Has s) ∧
    (m.get? "dirs" = none → m.get? "dir" = none → t.dirs = r.dirs) := by
  have hconf := configured_of_configure h
  have hhas : ∀ old ss, t.dirs = added r.base old ss → ∀ s ∈ ss, t.Has s := by
    intro old ss ht s hs
    rw [Has, ht, hconf.base]
    exact exists_equiv_added hs r.base old
  obtain ⟨mid, hdir, hdirs⟩ := hconf.dirs
  refine ⟨?_, ?_, ?_⟩
  · intro v hv
    rw [Sets, show m.entries.lookup "dirs" = some v from hv] at hdirs
    obtain ⟨ss, hss, ht⟩ := hdirs
    exact ⟨ss, hss, ht.trans (dirs_setDirs r ss).symm, hhas _ ss ht⟩
  · intro hnone v hv
    rw [Sets, show m.entries.lookup "dirs" = none from hnone] at hdirs
    rw [Sets, show m.entries.lookup "dir" = some v from hv] at hdir
    obtain ⟨ss, hss, hmid⟩ := hdir
    have ht := hdirs.trans hmid
    exact ⟨ss, hss, ht.trans (dirs_addDirs r ss).symm, hhas _ ss ht⟩
  · intro hnone hnone'
    rw [Sets, show m.entries.lookup "dirs" = none from hnone] at hdirs
    rw [Sets, show m.entries.lookup "dir" = none from hnone'] at hdir
    exact hdirs.trans hdir

/-- Both keys, with a list and a directory that stands in it already. -/
theorem dirs_of_configure_both :
    let r := fresh ⟨"/project"⟩ 0
    let m := Properties.ofList [("dir", .string "a"), ("dirs", Json.ofStrings ["b", "./b", "/c"])]
    let t : FlatDirRepository := { r with dirs := [⟨"/project/b"⟩, ⟨"/c"⟩] }
    configure r m = (t, none) ∧ t.Has "b" ∧ t.Has "/c" := by
  intro r m t
  have h : configure r m = (t, none) := by decide
  obtain ⟨ss, hss, -, hhas⟩ := (dirs_of_configure h).1 (Json.ofStrings ["b", "./b", "/c"]) (by decide)
  rw [hss.unique _ _ _ (.many _)] at hhas
  exact ⟨h, hhas "b" (by simp), hhas "/c" (by simp)⟩

/-- A directory under `dir` is lost if the map has `dirs` too. -/
theorem dir_lost_to_dirs :
    let r := fresh ⟨"/project"⟩ 0
    let m := Properties.ofList [("dir", .string "a"), ("dirs", .string "b")]
    ∃ t, configure r m = (t, none) ∧ m.get? "dir" = some (.string "a") ∧ ¬ t.Has "a" := by
  intro r m
  refine ⟨{ r with dirs := [⟨"/project/b"⟩] }, by decide, by decide, ?_⟩
  rintro ⟨d, hd, hequiv⟩
  rw [List.mem_singleton.1 hd] at hequiv
  exact absurd hequiv (by decide)

end FlatDirRepository

end Depot
