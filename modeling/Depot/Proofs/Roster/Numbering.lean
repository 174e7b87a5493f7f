import Depot.Proofs.Roster.Distinct
import Depot.Proofs.Roster.Outcome

/-!
# Given names and numbered names

A name that an operation gives is kept as it is. Any other repository is named by a base, with a
number behind it from the second one on. No number is stored: each is found again by looking at the
names in the roster. In a run that gives no names these are, for each base, the numbers up to the
count of its repositories (`Numbered`), so that the next one is free and none is left out.
-/

namespace Depot

namespace Roster

/-! ### Names that are given -/

/-- What a request gives as the name of its repository: the value of the key in its map, the name of
its resolver, or the name of a finished repository other than the default one of its kind. -/
inductive Request.Gives : Request → Json → Prop where
  | build {w : Shorthand} {m : Properties} {v : Json} (h : m.get? "name" = some v) :
      Gives (.build w m) v
  | existing {r : Repository} (h : r.hasDefaultName = false) :
      Gives (.existing r) (.string r.name)
  | resolver (name : String) : Gives (.resolver name) (.string name)

/-- The shorthand whose base names the repository of a request that gives no name. -/
def Request.family? : Request → Option Shorthand
  | .build w _ => some w
  | .existing (.maven _) => some .maven
  | .existing (.ivy _) => some .ivy
  | .existing (.flatDir _) => some .flatDir
  | .existing (.custom _) | .resolver _ | .refused _ => none

lemma Request.explicit_iff {q : Request} : q.explicit = true ↔ ∃ v, q.Gives v := by
  cases q with
  | build w m =>
    rw [explicit, Properties.contains_iff]
    constructor
    · rintro ⟨v, hv⟩
      exact ⟨v, .build hv⟩
    · rintro ⟨v, h⟩
      cases h with
      | build hv => exact ⟨v, hv⟩
  | existing r =>
    rw [explicit, Bool.not_eq_true']
    constructor
    · intro h
      exact ⟨_, .existing h⟩
    · rintro ⟨v, h⟩
      cases h with
      | existing h => exact h
  | resolver name => exact ⟨fun _ => ⟨_, .resolver name⟩, fun _ => rfl⟩
  | refused e =>
    constructor
    · intro h
      cases h
    · rintro ⟨v, h⟩
      cases h

lemma Request.explicit_eq_false {q : Request} (h : ∀ v, ¬ q.Gives v) : q.explicit = false := by
  rw [← Bool.not_eq_true, explicit_iff]
  rintro ⟨v, hv⟩
  exact h v hv

/-- What was built for a request carries the name that the request gives. -/
lemma Request.Gives.eq_name {q : Request} {v : Json} (h : q.Gives v) {f : Factory} {used : Nat}
    {built : Repository} (hbuilt : (q.result f used).1 = .ok built) : v = .string built.name := by
  cases h with
  | build hv => exact (Shorthand.kind_and_name_of_build hbuilt).2.1 _ hv
  | existing h =>
    cases hbuilt
    rfl
  | resolver name =>
    cases hbuilt
    rfl

/-- What was built for a request that gives no name carries the base of its family. -/
lemma Request.exists_family {q : Request} (h : q.explicit = false) {f : Factory} {used : Nat}
    {built : Repository} (hbuilt : (q.result f used).1 = .ok built) :
    ∃ w, q.family? = some w ∧ built.name = w.base := by
  cases q with
  | build w m =>
    rw [explicit, Properties.contains_eq_false_iff] at h
    exact ⟨w, rfl, (Shorthand.kind_and_name_of_build hbuilt).2.2 h⟩
  | existing r =>
    cases hbuilt
    rw [explicit, Bool.not_eq_false'] at h
    cases built with
    | maven r => exact ⟨.maven, rfl, beq_iff_eq.1 h⟩
    | ivy r => exact ⟨.ivy, rfl, beq_iff_eq.1 h⟩
    | flatDir r => exact ⟨.flatDir, rfl, beq_iff_eq.1 h⟩
    | custom r => cases h
  | resolver name => cases h
  | refused e => cases hbuilt

/-! ### Numbers within a family -/

namespace Shorthand

/-- The name of the repository of a family that is declared as its `j`th. -/
def ordinal (w : Shorthand) (j : Nat) : String :=
  if j = 1 then w.base else numbered w.base j

@[simp] lemma ordinal_one (w : Shorthand) : w.ordinal 1 = w.base := rfl

lemma ordinal_of_two_le (w : Shorthand) {j : Nat} (h : 2 ≤ j) :
    w.ordinal j = numbered w.base j := by
  rw [ordinal, if_neg (by omega)]

lemma base_injective : Function.Injective base := by
  intro w w'
  cases w <;> cases w' <;> decide

/-- No base ends in a digit, and so the digits at the end of a name are its number. -/
lemma stem_base (w : Shorthand) : stem w.base = w.base.toList := by
  cases w <;> exact stem_of_getLast? rfl rfl

lemma stem_ordinal (w : Shorthand) (j : Nat) : stem (w.ordinal j) = w.base.toList := by
  rw [ordinal]
  split_ifs
  · exact w.stem_base
  · rw [stem_numbered, w.stem_base]

/-- Names of different families differ, and so do different names of one family. -/
lemma ordinal_inj {w w' : Shorthand} {i j : Nat} (h : w.ordinal i = w'.ordinal j) :
    w = w' ∧ i = j := by
  have hstem := congrArg stem h
  rw [stem_ordinal, stem_ordinal] at hstem
  obtain rfl := base_injective (String.toList_injective hstem)
  refine ⟨rfl, ?_⟩
  rw [ordinal, ordinal] at h
  split_ifs at h with hi hj hj
  · rw [hi, hj]
  · exact absurd h.symm (numbered_ne_base _ _)
  · exact absurd h (numbered_ne_base _ _)
  · exact numbered_injective _ h

end Shorthand

/-! ### One operation -/

/-- How the repository that a request is answered with stands to what was built for it: only the
name may differ, it does not if it was given, and otherwise it is the base with or without a
number. -/
structure Request.Answered (q : Request) (f : Factory) (used : Nat) (r : Repository) : Prop where
  content : ∃ built, (q.result f used).1 = .ok built ∧ r = built.withName r.name
  verbatim : ∀ v, q.Gives v → v = .string r.name
  numbered : (∀ v, ¬ q.Gives v) → ∃ w, q.family? = some w ∧
    (r.name = w.base ∨ ∃ n, 2 ≤ n ∧ r.name = numbered w.base n)

lemma answered_of_run {f : Factory} {op : Operation} {s t : Roster} {r : Repository}
    (h : s.run f op = (.ok r, t)) : op.request.Answered f s.used r := by
  obtain ⟨built, hbuilt, hsettled, -⟩ := run_eq_ok h
  refine ⟨⟨built, hbuilt, hsettled.eq_withName⟩, ?_, ?_⟩
  · intro v hv
    rw [hv.eq_name hbuilt, hsettled.eq_of_explicit (Request.explicit_iff.2 ⟨v, hv⟩)]
  · intro hnone
    obtain ⟨w, hw, hname⟩ := Request.exists_family (Request.explicit_eq_false hnone) hbuilt
    refine ⟨w, hw, ?_⟩
    cases hsettled with
    | kept _ => exact .inl hname
    | @renamed n _ _ hn =>
      rw [Repository.name_withName, hname]
      exact .inr ⟨n, hn.two_le, rfl⟩

/-! ### Runs -/

/-- What a run declares: each operation that succeeds, with the repository that answers it. -/
def declarations (f : Factory) : List Operation → Roster → List (Operation × Repository)
  | [], _ => []
  | op :: ops, s =>
    match s.run f op with
    | (.ok r, t) => (op, r) :: declarations f ops t
    | (.error _, t) => declarations f ops t

lemma answered_of_mem_declarations {f : Factory} {ops : List Operation} {s : Roster}
    {op : Operation} {r : Repository} (h : (op, r) ∈ declarations f ops s) :
    ∃ used, op.request.Answered f used r := by
  induction ops generalizing s with
  | nil => cases h
  | cons first ops ih =>
    rw [declarations] at h
    cases hstep : s.run f first with
    | mk result t =>
      rw [hstep] at h
      cases result with
      | error e => exact ih h
      | ok u =>
        rcases List.mem_cons.1 h with heq | h
        · cases heq
          exact ⟨s.used, answered_of_run hstep⟩
        · exact ih h

/-- The repositories of a run stand in the roster in the order of their operations. -/
lemma declared_runAll (f : Factory) (ops : List Operation) (s : Roster) :
    (runAll f ops s).declared = s.declared ++ (declarations f ops s).map Prod.snd := by
  induction ops generalizing s with
  | nil => simp [declarations]
  | cons op ops ih =>
    have hext := run_extends f op s
    rw [runAll_cons, ih, declarations]
    generalize s.run f op = o at hext
    obtain ⟨(e | r), t⟩ := o
    · rw [show t.declared = s.declared from hext]
    · rw [hext.1, List.append_assoc]
      rfl

/-- The number of repositories of a family among some declarations. -/
def countOf (w : Shorthand) (log : List (Operation × Repository)) : Nat :=
  log.countP fun e => e.1.request.family? == some w

/-- The names in a roster are those of the declarations so far, each family numbered from one up. -/
def Numbered (s : Roster) (log : List (Operation × Repository)) : Prop :=
  ∀ name, name ∈ s.names ↔ ∃ w j, 1 ≤ j ∧ j ≤ countOf w log ∧ name = w.ordinal j

lemma numbered_empty (used : Nat) : Numbered { used } [] := by
  intro name
  simp [names, countOf]

lemma countOf_append_singleton {w w' : Shorthand} {log : List (Operation × Repository)}
    {op : Operation} {r : Repository} (h : op.request.family? = some w) :
    countOf w' (log ++ [(op, r)]) = countOf w' log + if w' = w then 1 else 0 := by
  rw [countOf, List.countP_append, List.countP_singleton, h]
  by_cases hw : w' = w
  · simp [hw, countOf]
  · simp [hw, countOf, Ne.symm hw]

/-- Of each family, the names up to a count are taken and no others. -/
def Counted (s : Roster) (count : Shorthand → Nat) : Prop :=
  ∀ (w : Shorthand) (j : Nat), 1 ≤ j → (w.ordinal j ∈ s.names ↔ j ≤ count w)

/-- A repository without a given name gets the next number of its family. -/
lemma Counted.name_eq {s : Roster} {count : Shorthand → Nat} (h : s.Counted count)
    {built r : Repository} {w : Shorthand} (hname : built.name = w.base)
    (hsettled : s.Settled built false r) : r.name = w.ordinal (count w + 1) := by
  cases hsettled with
  | kept hfree =>
    rw [hname, ← w.ordinal_one, h w 1 (Nat.le_refl 1)] at hfree
    rw [hname, show count w = 0 by omega, w.ordinal_one]
  | @renamed n _ htaken hn =>
    obtain ⟨htwo, hfree, hleast⟩ := hn
    rw [hname, ← w.ordinal_one, h w 1 (Nat.le_refl 1)] at htaken
    rw [hname, ← w.ordinal_of_two_le htwo, h w n (by omega)] at hfree
    have hnext : ¬ count w + 1 < n := by
      intro hlt
      have hmem := hleast _ (by omega) hlt
      rw [hname, ← w.ordinal_of_two_le (by omega), h w _ (by omega)] at hmem
      omega
    have heq : n = count w + 1 := by omega
    rw [Repository.name_withName, hname, ← w.ordinal_of_two_le htwo, heq]

lemma Numbered.counted {s : Roster} {log : List (Operation × Repository)} (h : Numbered s log) :
    s.Counted (countOf · log) := by
  intro w j hj
  rw [h]
  constructor
  · rintro ⟨w', i, -, hi, heq⟩
    obtain ⟨rfl, rfl⟩ := Shorthand.ordinal_inj heq
    exact hi
  · intro hle
    exact ⟨w, j, hj, hle, rfl⟩

/-- A name that some family has up to a count. -/
def Ordinal (count : Shorthand → Nat) (name : String) : Prop :=
  ∃ w j, 1 ≤ j ∧ j ≤ count w ∧ name = w.ordinal j

/-- Counting one more of a family adds its next name. -/
lemma ordinal_succ_iff {count : Shorthand → Nat} {w : Shorthand} {name : String} :
    Ordinal (fun w' => count w' + if w' = w then 1 else 0) name ↔
      Ordinal count name ∨ name = w.ordinal (count w + 1) := by
  constructor
  · rintro ⟨w', j, hj, hle, rfl⟩
    by_cases hlast : w' = w ∧ j = count w + 1
    · obtain ⟨rfl, rfl⟩ := hlast
      exact .inr rfl
    · refine .inl ⟨w', j, hj, ?_, rfl⟩
      dsimp only at hle
      split_ifs at hle with heq
      · subst heq
        have hne : j ≠ count w' + 1 := fun hj => hlast ⟨rfl, hj⟩
        omega
      · exact hle
  · rintro (⟨w', j, hj, hle, rfl⟩ | rfl)
    · exact ⟨w', j, hj, Nat.le_add_right_of_le hle, rfl⟩
    · exact ⟨w, count w + 1, by omega, by simp, rfl⟩

/-- Declaring the next repository of a family keeps the numbering. -/
lemma Numbered.append {s t : Roster} {log : List (Operation × Repository)} (h : Numbered s log)
    {op : Operation} {r : Repository} {w : Shorthand} (hw : op.request.family? = some w)
    (hname : r.name = w.ordinal (countOf w log + 1)) (ht : t.declared = s.declared ++ [r]) :
    Numbered t (log ++ [(op, r)]) := by
  intro name
  have hnames : t.names = s.names ++ [r.name] := by
    rw [names, ht, List.map_append]
    rfl
  have hcount : (countOf · (log ++ [(op, r)])) =
      fun w' => countOf w' log + if w' = w then 1 else 0 :=
    funext fun w' => countOf_append_singleton hw
  change _ ↔ Ordinal (countOf · (log ++ [(op, r)])) name
  rw [hcount, ordinal_succ_iff, hnames, List.mem_append, List.mem_singleton, h name, hname]
  rfl

lemma Numbered.of_declared_eq {s t : Roster} {log : List (Operation × Repository)}
    (h : Numbered s log) (ht : t.declared = s.declared) : Numbered t log := by
  intro name
  rw [names, ht]
  exact h name

/-- In a run that gives no names, each family is numbered without a gap from where it stands. -/
lemma name_of_declarations {f : Factory} {ops : List Operation}
    (hops : ∀ op ∈ ops, ∀ v, ¬ op.request.Gives v) {s : Roster}
    {log before after : List (Operation × Repository)} {op : Operation} {r : Repository}
    (h : Numbered s log) (hrun : declarations f ops s = before ++ (op, r) :: after) :
    ∃ w, op.request.family? = some w ∧ r.name = w.ordinal (countOf w (log ++ before) + 1) := by
  induction ops generalizing s log before with
  | nil =>
    rw [declarations] at hrun
    exact absurd hrun (by simp)
  | cons first ops ih =>
    obtain ⟨hfirst, hops⟩ := List.forall_mem_cons.1 hops
    rw [declarations] at hrun
    cases hstep : s.run f first with
    | mk result t =>
      rw [hstep] at hrun
      cases result with
      | error e =>
        have hext := run_extends f first s
        rw [hstep] at hext
        exact ih hops (h.of_declared_eq hext) hrun
      | ok u =>
        obtain ⟨built, hbuilt, hsettled, ht⟩ := run_eq_ok hstep
        have hexplicit := Request.explicit_eq_false hfirst
        obtain ⟨w, hw, hbase⟩ := Request.exists_family hexplicit hbuilt
        rw [hexplicit] at hsettled
        have hname := h.counted.name_eq hbase hsettled
        cases before with
        | nil =>
          cases hrun
          refine ⟨w, hw, ?_⟩
          rw [List.append_nil]
          exact hname
        | cons e before =>
          obtain ⟨rfl, hrest⟩ := List.cons.inj hrun
          rw [List.append_cons]
          exact ih hops (h.append hw hname ht) hrest

/-- A name that an operation gives is kept or the operation fails; every other repository has the
base of its family, with or without a number, and nothing but its name is changed. A run that gives
no names numbers each family in the order of its declarations, the first one without a number. -/
theorem runAll_numbered (f : Factory) (ops : List Operation) (used : Nat) :
    (runAll f ops { used }).declared = (declarations f ops { used }).map Prod.snd ∧
    (∀ op r, (op, r) ∈ declarations f ops { used } →
      ∃ taken, op.request.Answered f taken r) ∧
    ((∀ op ∈ ops, ∀ v, ¬ op.request.Gives v) →
      ∀ before op r after, declarations f ops { used } = before ++ (op, r) :: after →
        ∃ w, op.request.family? = some w ∧ r.name = w.ordinal (countOf w before + 1)) := by
  refine ⟨?_, fun op r => answered_of_mem_declarations, ?_⟩
  · rw [declared_runAll, List.nil_append]
  · intro hops before op r after hrun
    exact name_of_declarations hops (numbered_empty used) hrun

/-- Entries that give no names. Where there is no local repository, the third one fails. -/
def unnamed : List Operation :=
  [.declare (.string "https://a.example.org"), .declare (.string "mavenCentral"),
    .declare (.string "mavenLocal"), .declare (.string "https://b.example.org")]

/-- A factory without a local repository. -/
def withoutLocal : Factory :=
  ⟨fun _ => .error "no home directory", ⟨"/"⟩, fun _ => .empty, .numbered 0⟩

lemma steady_withoutLocal : withoutLocal.Steady := ⟨rfl, fun _ _ => rfl⟩

theorem runAll_numbered_unnamed :
    (∀ op ∈ unnamed, ∀ v, ¬ op.request.Gives v) ∧
      (runAll withoutLocal unnamed {}).names = ["maven", "MavenRepo", "maven2"] ∧
      ∃ before op r, declarations withoutLocal unnamed {} = before ++ [(op, r)] ∧
        ∃ w, op.request.family? = some w ∧ r.name = w.ordinal (countOf w before + 1) := by
  have hunnamed : ∀ op ∈ unnamed, ∀ v, ¬ op.request.Gives v := by
    have hexplicit : ∀ op ∈ unnamed, op.request.explicit = false := by decide
    intro op hop v hv
    have htrue := Request.explicit_iff.2 ⟨v, hv⟩
    rw [hexplicit op hop] at htrue
    cases htrue
  have hlast : ∃ before op r, declarations withoutLocal unnamed {} = before ++ [(op, r)] :=
    ⟨[_, _], _, _, rfl⟩
  obtain ⟨before, op, r, hrun⟩ := hlast
  exact ⟨hunnamed, rfl, before, op, r, hrun,
    (runAll_numbered withoutLocal unnamed 0).2.2 hunnamed before op r [] hrun⟩

end Roster

end Depot
