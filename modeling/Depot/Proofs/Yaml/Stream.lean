import Depot.Proofs.Result
import Depot.Proofs.Yaml.Mark
import Depot.Yaml.Token.Stream

/-!
# Tokens one by one

The scanner hands out a token as soon as no pending key holds it back, and goes on from there. Every
step of it does the same whether the first token in its queue was handed out before or not
(`Popped.fetch`), so that a text is cut into the tokens that are in the queue when the steps are
taken to the end without handing any out (`Runs.tokensFrom_eq`).
-/

namespace Depot.Yaml.Scan

variable {x : Token} {n : Nat} {s t : Scan}

/-! ### Handing out a token -/

/-- A state before (`s`) and after (`t`) its first token, the one with the number `n`, was handed
out, when no pending key may still put anything in front of that token. -/
structure Popped (x : Token) (n : Nat) (t s : Scan) : Prop where
  eq : s = { t with queue := x :: t.queue, taken := n }
  taken : t.taken = n + 1
  later : ∀ k ∈ t.key :: t.outer, ∀ p ∈ k, n < p.number

namespace Popped

lemma cursor (h : Popped x n t s) : s.cursor = t.cursor := by rw [h.eq]

lemma mark (h : Popped x n t s) : s.mark = t.mark := by rw [Scan.mark, h.cursor, Scan.mark]

lemma outer (h : Popped x n t s) : s.outer = t.outer := by rw [h.eq]

lemma inFlow (h : Popped x n t s) : s.inFlow = t.inFlow := by
  rw [Scan.inFlow, h.outer, Scan.inFlow]

lemma indent (h : Popped x n t s) : s.indent = t.indent := by rw [h.eq]

lemma indents (h : Popped x n t s) : s.indents = t.indents := by rw [h.eq]

lemma keyAllowed (h : Popped x n t s) : s.keyAllowed = t.keyAllowed := by rw [h.eq]

lemma key (h : Popped x n t s) : s.key = t.key := by rw [h.eq]

lemma colonFault (h : Popped x n t s) : s.colonFault = t.colonFault := by
  funext k
  rw [Scan.colonFault, h.mark, Scan.colonFault]

lemma isStale (h : Popped x n t s) : s.isStale = t.isStale := by
  funext k
  rw [Scan.isStale, h.mark, Scan.isStale]

/-! #### Tokens and places -/

lemma placed (h : Popped x n t s) (c : Cursor) :
    Popped x n { t with cursor := c } { s with cursor := c } := by
  obtain ⟨rfl, htaken, hlater⟩ := h
  exact ⟨rfl, htaken, hlater⟩

lemma allowing (h : Popped x n t s) (b : Bool) :
    Popped x n { t with keyAllowed := b } { s with keyAllowed := b } := by
  obtain ⟨rfl, htaken, hlater⟩ := h
  exact ⟨rfl, htaken, hlater⟩

lemma moved (h : Popped x n t s) (b : Bool) (c : Cursor) :
    Popped x n { t with keyAllowed := b, cursor := c } { s with keyAllowed := b, cursor := c } := by
  obtain ⟨rfl, htaken, hlater⟩ := h
  exact ⟨rfl, htaken, hlater⟩

lemma push (h : Popped x n t s) (a : Token) : Popped x n (t.push a) (s.push a) := by
  obtain ⟨rfl, htaken, hlater⟩ := h
  exact ⟨rfl, htaken, hlater⟩

lemma indicator (h : Popped x n t s) (w : Word) (k : Nat) :
    Popped x n (t.indicator w k) (s.indicator w k) := by
  obtain ⟨rfl, htaken, hlater⟩ := h
  exact ⟨rfl, htaken, hlater⟩

lemma insertAt (h : Popped x n t s) {k : Nat} (hk : n < k) (a : Token) :
    Popped x n (t.insertAt k a) (s.insertAt k a) := by
  obtain ⟨rfl, htaken, hlater⟩ := h
  have hplace : k - n = k - t.taken + 1 := by omega
  refine ⟨?_, htaken, hlater⟩
  simp only [Scan.insertAt, hplace]
  rfl

lemma roll (h : Popped x n t s) (m : Mark) (number : Option Nat) (hnumber : ∀ k ∈ number, n < k)
    (w : Word) : Popped x n (t.roll m number w) (s.roll m number w) := by
  unfold Scan.roll
  rw [h.inFlow, h.indent]
  split
  · exact h
  · have hopened : Popped x n { t with indents := t.indent :: t.indents, indent := m.column }
        { s with indents := t.indent :: s.indents, indent := m.column } := by
      obtain ⟨rfl, htaken, hlater⟩ := h
      exact ⟨rfl, htaken, hlater⟩
    cases number with
    | none => exact hopened.push _
    | some k => exact hopened.insertAt (hnumber k rfl) _

lemma unroll (h : Popped x n t s) (column : Int) :
    Popped x n (t.unroll column) (s.unroll column) := by
  unfold Scan.unroll
  rw [h.inFlow, h.indent, h.indents, h.mark]
  split
  · exact h
  · obtain ⟨rfl, htaken, hlater⟩ := h
    exact ⟨rfl, htaken, hlater⟩

/-! #### Pending keys -/

/-- Other pending keys, as long as they are still to come. -/
lemma keys (h : Popped x n t s) {key : Option PendingKey} {outer : List (Option PendingKey)}
    (hkey : ∀ p ∈ key, n < p.number) (houter : ∀ k ∈ outer, ∀ p ∈ k, n < p.number) :
    Popped x n { t with key, outer } { s with key, outer } := by
  obtain ⟨rfl, htaken, -⟩ := h
  exact ⟨rfl, htaken, List.forall_mem_cons.2 ⟨hkey, houter⟩⟩

/-- Another pending key in the innermost brackets. -/
lemma withKey (h : Popped x n t s) (key : Option PendingKey) (hkey : ∀ p ∈ key, n < p.number) :
    Popped x n { t with key } { s with key } := by
  have houter := (List.forall_mem_cons.1 h.later).2
  simpa only [h.outer] using h.keys hkey houter

lemma dropKey (h : Popped x n t s) : Agree (Popped x n) t.dropKey s.dropKey := by
  unfold Scan.dropKey
  rw [h.key, h.colonFault]
  cases t.key with
  | none => exact .ok h
  | some k =>
    dsimp only
    split
    · exact .error _
    · exact .ok (h.withKey none nofun)

lemma saveKey (h : Popped x n t s) : Agree (Popped x n) t.saveKey s.saveKey := by
  have hnumber : s.taken + s.queue.length = t.taken + t.queue.length := by
    rw [h.taken, h.eq]
    simp only [List.length_cons]
    omega
  unfold Scan.saveKey
  rw [h.keyAllowed, h.inFlow, h.indent, h.mark, hnumber]
  split
  · refine h.dropKey.map fun t' s' h' => h'.withKey _ ?_
    rintro p ⟨⟩
    simp only [h.taken]
    omega
  · exact .ok h

lemma dropStale (h : Popped x n t s) : Agree (Popped x n) t.dropStale s.dropStale := by
  unfold Scan.dropStale
  rw [h.key, h.outer, h.isStale, h.colonFault]
  dsimp only
  split
  · exact .error _
  · have hkeep : ∀ k ∈ t.key :: t.outer,
        ∀ p ∈ (if k.any t.isStale then none else k), n < p.number := by
      intro k hk p hp
      split at hp
      · cases hp
      · exact h.later k hk p hp
    obtain ⟨hkey, houter⟩ := List.forall_mem_cons.1 hkeep
    refine .ok (h.keys hkey ?_)
    intro k' hk' p hp
    obtain ⟨k, hk, rfl⟩ := List.mem_map.1 hk'
    exact houter k hk p hp

/-! #### The next token -/

lemma fetchEnd (h : Popped x n t s) : Agree (Popped x n) t.fetchEnd s.fetchEnd := by
  unfold Scan.fetchEnd
  rw [h.mark, h.cursor]
  exact ((h.placed _).unroll _).dropKey.bind fun _ _ h' => .ok ((h'.allowing _).push _)

lemma fetchDirective (h : Popped x n t s) :
    Agree (Popped x n) t.fetchDirective s.fetchDirective := by
  refine (h.unroll _).dropKey.bind fun t' s' h' => ?_
  rw [h'.cursor]
  refine (Agree.refl (R := Eq) (fun _ => rfl) _).bind ?_
  rintro ⟨a, c⟩ _ rfl
  exact .ok ((h'.moved _ _).push _)

lemma fetchDocumentMark (h : Popped x n t s) (w : Word) :
    Agree (Popped x n) (t.fetchDocumentMark w) (s.fetchDocumentMark w) :=
  (h.unroll _).dropKey.bind fun _ _ h' => .ok ((h'.allowing _).indicator _ _)

lemma fetchFlowStart (h : Popped x n t s) (w : Word) :
    Agree (Popped x n) (t.fetchFlowStart w) (s.fetchFlowStart w) := by
  refine h.saveKey.bind fun t' s' h' => ?_
  rw [h'.key, h'.outer]
  have hkeys : Popped x n { t' with outer := t'.key :: t'.outer, key := none }
      { s' with outer := t'.key :: t'.outer, key := none } := h'.keys nofun h'.later
  exact .ok ((hkeys.allowing true).indicator _ _)

lemma fetchFlowEnd (h : Popped x n t s) (w : Word) :
    Agree (Popped x n) (t.fetchFlowEnd w) (s.fetchFlowEnd w) := by
  refine h.dropKey.bind fun t' s' h' => ?_
  rw [h'.outer]
  cases houter : t'.outer with
  | nil => exact .ok ((h'.allowing _).indicator _ _)
  | cons key outer =>
    have hlater := (List.forall_mem_cons.1 h'.later).2
    rw [houter] at hlater
    obtain ⟨hkey, houter⟩ := List.forall_mem_cons.1 hlater
    exact .ok (((h'.keys hkey houter).allowing _).indicator _ _)

lemma fetchFlowEntry (h : Popped x n t s) :
    Agree (Popped x n) t.fetchFlowEntry s.fetchFlowEntry :=
  h.dropKey.bind fun _ _ h' => .ok ((h'.allowing _).indicator _ _)

lemma fetchBlockEntry (h : Popped x n t s) :
    Agree (Popped x n) t.fetchBlockEntry s.fetchBlockEntry := by
  unfold Scan.fetchBlockEntry
  rw [h.inFlow, h.keyAllowed, h.mark]
  split
  · exact .error _
  · exact (h.roll _ none nofun _).dropKey.bind fun _ _ h' => .ok ((h'.allowing _).indicator _ _)

lemma fetchKey (h : Popped x n t s) : Agree (Popped x n) t.fetchKey s.fetchKey := by
  unfold Scan.fetchKey
  rw [h.inFlow, h.keyAllowed, h.mark]
  split
  · exact .error _
  · refine (h.roll _ none nofun _).dropKey.bind fun t' s' h' => ?_
    rw [h'.inFlow]
    exact .ok ((h'.allowing _).indicator _ _)

lemma fetchValue (h : Popped x n t s) : Agree (Popped x n) t.fetchValue s.fetchValue := by
  unfold Scan.fetchValue
  rw [h.key]
  split
  next k hk =>
    have hnumber : n < k.number := h.later _ List.mem_cons_self k hk
    have hinserted := (h.insertAt hnumber ⟨.key, k.mark, k.mark⟩).roll k.mark (some k.number)
      (by simpa using hnumber) .blockMappingStart
    exact .ok (((hinserted.withKey none nofun).allowing _).indicator _ _)
  next =>
    rw [h.inFlow, h.keyAllowed, h.mark]
    split
    · exact .error _
    · have hrolled := h.roll t.mark none nofun .blockMappingStart
      simp only [hrolled.inFlow]
      exact .ok ((hrolled.allowing _).indicator _ _)

lemma fetchProperty (h : Popped x n t s) (read : Cursor → Except Fault (Token × Cursor)) :
    Agree (Popped x n) (t.fetchProperty read) (s.fetchProperty read) := by
  refine h.saveKey.bind fun t' s' h' => ?_
  rw [h'.cursor]
  refine (Agree.refl (R := Eq) (fun _ => rfl) _).bind ?_
  rintro ⟨a, c⟩ _ rfl
  exact .ok ((h'.moved _ _).push _)

lemma fetchBlockScalar (h : Popped x n t s) (literal : Bool) :
    Agree (Popped x n) (t.fetchBlockScalar literal) (s.fetchBlockScalar literal) := by
  refine h.dropKey.bind fun t' s' h' => ?_
  have hread : readBlock literal s'.indent s'.cursor = readBlock literal t'.indent t'.cursor := by
    rw [h'.cursor, h'.indent]
  rw [hread]
  refine (Agree.refl (R := Eq) (fun _ => rfl) _).bind ?_
  rintro ⟨a, c⟩ _ rfl
  exact .ok ((h'.moved _ _).push _)

lemma fetchPlain (h : Popped x n t s) : Agree (Popped x n) t.fetchPlain s.fetchPlain := by
  refine h.saveKey.bind fun t' s' h' => ?_
  have hread : readPlain s'.inFlow s'.indent s'.cursor =
      readPlain t'.inFlow t'.indent t'.cursor := by
    rw [h'.cursor, h'.indent, h'.inFlow]
  rw [hread]
  refine (Agree.refl (R := Eq) (fun _ => rfl) _).bind ?_
  rintro ⟨a, broken, c⟩ _ rfl
  exact .ok ((h'.moved _ _).push _)

lemma dispatch (h : Popped x n t s) : Agree (Popped x n) t.dispatch s.dispatch := by
  unfold Scan.dispatch
  rw [h.cursor, h.inFlow, h.mark]
  dsimp only
  split
  · exact h.fetchEnd
  · exact .ite h.fetchDirective <| .ite (h.fetchDocumentMark _) <| .ite (h.fetchDocumentMark _) <|
      .ite (h.fetchFlowStart _) <| .ite (h.fetchFlowStart _) <| .ite (h.fetchFlowEnd _) <|
      .ite (h.fetchFlowEnd _) <| .ite h.fetchFlowEntry <| .ite h.fetchBlockEntry <|
      .ite h.fetchKey <| .ite h.fetchValue <| .ite (h.fetchProperty _) <|
      .ite (h.fetchProperty _) <| .ite (h.fetchProperty _) <| .ite (h.fetchBlockScalar _) <|
      .ite (h.fetchBlockScalar _) <| .ite (h.fetchProperty _) <| .ite (h.fetchProperty _) <|
      .ite h.fetchPlain (.error _)

lemma fetch (h : Popped x n t s) : Agree (Popped x n) t.fetch s.fetch := by
  unfold Scan.fetch
  rw [h.cursor, h.inFlow, h.keyAllowed]
  refine (h.moved _ _).dropStale.bind fun t' s' h' => ?_
  rw [h'.mark]
  exact (h'.unroll _).dispatch

end Popped

/-! ### Stale keys -/

/-- The state without the pending keys that can no longer get their colon. -/
def fresh (s : Scan) : Scan :=
  { s with
    key := s.key.filter (!s.isStale ·)
    outer := s.outer.map (·.filter (!s.isStale ·)) }

lemma keep_eq_filter (p : PendingKey → Bool) (k : Option PendingKey) :
    (if k.any p then none else k) = k.filter (!p ·) := by
  cases k with
  | none => rfl
  | some k =>
    rw [Option.any_some, Option.filter_some]
    cases p k <;> rfl

lemma dropStale_eq_ok : s.dropStale = .ok t ↔
    (∀ k ∈ s.key :: s.outer, ∀ p ∈ k, s.isStale p = true → p.required = false) ∧ t = s.fresh := by
  unfold dropStale fresh
  simp only [keep_eq_filter]
  split
  next k hfind =>
    refine ⟨nofun, fun h => ?_⟩
    have hmem := List.mem_of_find?_eq_some hfind
    have hlate := List.find?_some hfind
    simp only [Option.any_some, Bool.and_eq_true] at hlate
    rw [h.1 (some k) (List.mem_reverse.1 hmem) k rfl hlate.1] at hlate
    exact absurd hlate.2 (by simp)
  next hfind =>
    rw [Except.ok.injEq, eq_comm, iff_and_self]
    rintro - k hk p hp hstale
    obtain rfl := Option.mem_def.1 hp
    rw [← Bool.not_eq_true]
    intro hrequired
    have hlate : (some p).any s.isStale && (some p).any PendingKey.required := by
      simp [hstale, hrequired]
    have hsome : ((s.key :: s.outer).reverse.find? fun k =>
        k.any s.isStale && k.any PendingKey.required).isSome :=
      List.find?_isSome.2 ⟨_, List.mem_reverse.2 hk, hlate⟩
    obtain ⟨k, hk'⟩ := Option.isSome_iff_exists.1 hsome
    cases k with
    | none => exact absurd (List.find?_some hk') (by simp)
    | some k => exact hfind k hk'

lemma toNextToken_upTo (inFlow : Bool) (fuel : Nat) (b : Bool) (c : Cursor) :
    c.mark.UpTo (toNextToken inFlow fuel b c).2.mark := by
  induction fuel generalizing b c with
  | zero => exact .refl _
  | succ fuel ih =>
    have hbom : c.mark.UpTo (if c.mark.column == 0 && c.sees '\ufeff' then c.skip 1 else c).mark :=
      .ite (.refl _) _ ((Mark.UpTo.refl _).right 1)
    have hblanks := hbom.skipWhile fun x => x == ' ' || ((inFlow || !b) && x == '\t')
    have hline := hblanks.skipComment
    rw [toNextToken]
    split
    next hbreak => exact (hline.trans (Cursor.upTo_readBreak? hbreak)).trans (ih _ _)
    next => exact hline

/-- The state at the next token. -/
def atNext (s : Scan) : Scan :=
  let (keyAllowed, cursor) :=
    toNextToken s.inFlow (s.cursor.rest.length + 1) s.keyAllowed s.cursor
  { s with keyAllowed, cursor }

lemma fetch_eq (s : Scan) :
    s.fetch = s.atNext.dropStale >>= fun s => (s.unroll s.mark.column).dispatch := rfl

lemma isStale_atNext {k : PendingKey} (h : s.isStale k = true) : s.atNext.isStale k = true := by
  have hupTo : s.mark.UpTo s.atNext.mark :=
    toNextToken_upTo s.inFlow (s.cursor.rest.length + 1) s.keyAllowed s.cursor
  obtain ⟨hline, hindex⟩ := hupTo
  simp only [isStale, Bool.or_eq_true, decide_eq_true_eq] at h ⊢
  omega

lemma fresh_atNext (s : Scan) :
    s.fresh.atNext = { s.atNext with key := s.fresh.key, outer := s.fresh.outer } := by
  have hflow : s.fresh.inFlow = s.inFlow := by simp [inFlow, fresh]
  simp only [atNext, hflow]
  rfl

lemma fresh_atNext_fresh (s : Scan) : s.fresh.atNext.fresh = s.atNext.fresh := by
  have hkeep : ∀ k : Option PendingKey, (k.filter (!s.isStale ·)).filter (!s.atNext.isStale ·) =
      k.filter (!s.atNext.isStale ·) := by
    rintro (_ | k)
    · rfl
    · cases hk : s.isStale k with
      | true => simp [Option.filter_some, hk, isStale_atNext hk]
      | false => simp [Option.filter_some, hk]
  have houter : (s.outer.map (·.filter (!s.isStale ·))).map (·.filter (!s.atNext.isStale ·)) =
      s.outer.map (·.filter (!s.atNext.isStale ·)) := by
    rw [List.map_map]
    exact List.map_congr_left fun k _ => hkeep k
  have hkey := hkeep s.key
  calc s.fresh.atNext.fresh
    _ = { s.atNext with
          key := (s.key.filter (!s.isStale ·)).filter (!s.atNext.isStale ·)
          outer := (s.outer.map (·.filter (!s.isStale ·))).map
            (·.filter (!s.atNext.isStale ·)) } := by rw [fresh_atNext]; rfl
    _ = s.atNext.fresh := by rw [hkey, houter]; rfl

/-- Nothing changes if pending keys are given up one token too early. -/
lemma fetch_fresh (h : s.fetch = .ok t) : s.dropStale = .ok s.fresh ∧ s.fresh.fetch = .ok t := by
  rw [fetch_eq] at h
  obtain ⟨s', hs', ht⟩ := bind_eq_ok.1 h
  obtain ⟨hrequired, rfl⟩ := dropStale_eq_ok.1 hs'
  have hdrop : s.dropStale = .ok s.fresh :=
    dropStale_eq_ok.2 ⟨fun k hk p hp hstale => hrequired k hk p hp (isStale_atNext hstale), rfl⟩
  have hdrop' : s.fresh.atNext.dropStale = .ok s.atNext.fresh := by
    refine dropStale_eq_ok.2 ⟨?_, (fresh_atNext_fresh s).symm⟩
    rw [fresh_atNext]
    intro k hk p hp hstale
    have hkeys : s.fresh.key :: s.fresh.outer =
        (s.key :: s.outer).map (·.filter (!s.isStale ·)) := rfl
    rw [hkeys] at hk
    obtain ⟨k', hk', rfl⟩ := List.mem_map.1 hk
    exact hrequired k' hk' p (Option.mem_filter_iff.1 hp).1 hstale
  refine ⟨hdrop, ?_⟩
  rw [fetch_eq, hdrop']
  exact ht

lemma fetchMore_succ (fuel : Nat)
    (h : (if s.queue.isEmpty then .ok s else s.dropStale) = .ok t) :
    fetchMore (fuel + 1) s =
      if t.queue.isEmpty || t.isHeld then t.fetch >>= fetchMore fuel else .ok t := by
  rw [fetchMore]
  split at h
  · next hempty =>
    obtain rfl := Except.ok.inj h
    rw [if_pos hempty]
    rfl
  · next hempty =>
    rw [if_neg hempty, h]
    rfl

/-! ### Whole runs -/

/-- Steps to the end of a text that leave no key pending. A step takes a character, but for the last
one. -/
inductive Runs : Nat → Scan → List Token → Prop
  | done {s : Scan} (hkey : s.key = none) (houter : s.outer = []) : Runs 0 s s.queue
  | step {k : Nat} {s t : Scan} {q : List Token} (h : s.fetch = .ok t)
      (hk : k ≤ s.cursor.rest.length) (ht : Runs k t q) : Runs (k + 1) s q

namespace Runs

variable {k fuel : Nat} {q : List Token}

lemma le (h : Runs k s q) : k ≤ s.cursor.rest.length + 1 := by
  cases h with
  | done => exact Nat.zero_le _
  | step _ hk _ => exact Nat.succ_le_succ hk

lemma fresh (h : Runs k s q) : s.dropStale = .ok s.fresh ∧ Runs k s.fresh q := by
  cases h with
  | done hkey houter =>
    have hfresh : s.fresh = s := by
      obtain ⟨⟩ := s
      obtain rfl := hkey
      obtain rfl := houter
      rfl
    refine ⟨dropStale_eq_ok.2 ⟨?_, rfl⟩, by rw [hfresh]; exact .done hkey houter⟩
    simp [hkey, houter]
  | step h hk ht =>
    obtain ⟨hdrop, hfetch⟩ := fetch_fresh h
    exact ⟨hdrop, .step hfetch hk ht⟩

/-- The token that was handed out is the first one. -/
lemma popped (hr : Runs k s q) (h : Popped x n t s) : ∃ q', q = x :: q' ∧ Runs k t q' := by
  induction hr generalizing t with
  | done hkey houter =>
    rw [h.key] at hkey
    rw [h.outer] at houter
    exact ⟨t.queue, by rw [h.eq], .done hkey houter⟩
  | step hfetch hk _ ih =>
    have hagree := h.fetch
    rw [hfetch] at hagree
    obtain ⟨t', ht', h'⟩ := hagree.exists_of_ok
    obtain ⟨q', rfl, hr'⟩ := ih h'
    rw [h.cursor] at hk
    exact ⟨q', rfl, .step ht' hk hr'⟩

/-- Taking tokens until one is free is the beginning of the run. -/
lemma fetchMore_eq (hr : Runs k t q) (h : Popped x n t s) (hq : q ≠ []) (hfuel : k < fuel) :
    ∃ t' s' k', fetchMore fuel t = .ok t' ∧ Runs k' t' q ∧ Popped x n t' s' ∧ t'.queue ≠ [] ∧
      t'.isHeld = false := by
  induction fuel generalizing k s t with
  | zero => omega
  | succ fuel ih =>
    obtain ⟨s₁, t₁, hdrop, hr₁, h₁⟩ : ∃ s₁ t₁,
        (if t.queue.isEmpty then .ok t else t.dropStale) = .ok t₁ ∧ Runs k t₁ q ∧
        Popped x n t₁ s₁ := by
      split
      · exact ⟨s, t, rfl, hr, h⟩
      · obtain ⟨hdrop, hfresh⟩ := hr.fresh
        have hagree := h.dropStale
        rw [hdrop] at hagree
        obtain ⟨s₁, -, h₁⟩ := hagree.exists_of_ok_left
        exact ⟨s₁, t.fresh, hdrop, hfresh, h₁⟩
    rw [fetchMore_succ fuel hdrop]
    split
    next hheld =>
      cases hr₁ with
      | done hkey houter =>
        simp [isHeld, hkey, houter, hq] at hheld
      | step hfetch hk ht =>
        have hagree := h₁.fetch
        rw [hfetch] at hagree
        obtain ⟨s₂, -, h₂⟩ := hagree.exists_of_ok_left
        rw [hfetch]
        exact ih ht h₂ (by omega)
    next hheld =>
      rw [Bool.or_eq_true, not_or, Bool.not_eq_true, Bool.not_eq_true] at hheld
      exact ⟨t₁, s₁, k, rfl, hr₁, h₁, by simpa using hheld.1, hheld.2⟩

/-- Behind a token that nothing holds back, the next one can be handed out. -/
lemma popped_of_isHeld {a : Token} {queue : List Token} (h : Popped x n t s)
    (hheld : t.isHeld = false) (hqueue : t.queue = a :: queue) :
    Popped a (n + 1) { t with queue, taken := t.taken + 1 } t := by
  refine ⟨?_, by rw [h.taken], fun k hk p hp => ?_⟩
  · rw [← hqueue, ← h.taken]
  · have hlater := h.later k hk p hp
    have hne : p.number ≠ t.taken := by
      obtain rfl := Option.mem_def.1 hp
      simpa using List.any_eq_false.1 hheld _ hk
    have htaken := h.taken
    omega

theorem tokensFrom_eq {e : Token} {ts : List Token} (hr : Runs k t (ts ++ [e]))
    (h : Popped x n t s) (hts : ∀ a ∈ ts, a.word ≠ .streamEnd) (he : e.word = .streamEnd)
    (hfuel : ts.length < fuel) : tokensFrom fuel t = (ts ++ [e], none) := by
  induction fuel generalizing k n x s t ts with
  | zero => omega
  | succ fuel ih =>
    have hmany : k < t.cursor.rest.length + 3 := by
      have hle := hr.le
      omega
    obtain ⟨t', s', k', hmore, hr', h', hqueue, hheld⟩ := hr.fetchMore_eq h (by simp) hmany
    obtain ⟨a, queue, haq⟩ := List.exists_cons_of_ne_nil hqueue
    have hpopped := popped_of_isHeld h' hheld haq
    obtain ⟨q', hq', hr''⟩ := hr'.popped hpopped
    rw [tokensFrom, hmore]
    simp only [haq]
    cases ts with
    | nil =>
      obtain ⟨rfl, rfl⟩ := List.cons.inj hq'
      rw [if_pos he]
      rfl
    | cons b ts =>
      obtain ⟨rfl, rfl⟩ := List.cons.inj hq'
      obtain ⟨hb, hts⟩ := List.forall_mem_cons.1 hts
      rw [if_neg hb, ih hr'' hpopped hts (by simpa using hfuel)]
      rfl

end Runs

end Scan

/-- The tokens of a text are those of the run from its beginning to its end. -/
theorem tokens_eq {text : List Char} {k : Nat} {e : Token} {ts : List Token}
    (htext : controlOffset? 0 text = none)
    (hr : Scan.Runs k { cursor := ⟨text, {}⟩, queue := [⟨.streamStart, {}, {}⟩] } (ts ++ [e]))
    (hts : ∀ a ∈ ts, a.word ≠ .streamEnd) (he : e.word = .streamEnd)
    (hfuel : ts.length < 5 * text.length + 10) : tokens text = (ts ++ [e], none) := by
  have hpopped : Scan.Popped ⟨.streamStart, {}, {}⟩ 0 { cursor := ⟨text, {}⟩, taken := 1 }
      { cursor := ⟨text, {}⟩, queue := [⟨.streamStart, {}, {}⟩] } := ⟨rfl, rfl, by simp⟩
  have hmore : Scan.fetchMore (text.length + 3)
      { cursor := ⟨text, {}⟩, queue := [⟨.streamStart, {}, {}⟩] } =
        .ok { cursor := ⟨text, {}⟩, queue := [⟨.streamStart, {}, {}⟩] } :=
    (Scan.fetchMore_succ (text.length + 2) rfl).trans rfl
  obtain ⟨q, hq, hr'⟩ := hr.popped hpopped
  simp only [tokens, htext]
  rw [Scan.tokensFrom, hmore]
  cases ts with
  | nil =>
    obtain ⟨rfl, -⟩ := List.cons.inj hq
    cases he
  | cons a ts =>
    obtain ⟨rfl, rfl⟩ := List.cons.inj hq
    have hts' := (List.forall_mem_cons.1 hts).2
    have hfuel' : ts.length < 5 * text.length + 9 := by simpa using hfuel
    have hlater := hr'.tokensFrom_eq hpopped hts' he hfuel'
    simp only [reduceCtorEq, if_false, hlater]
    rfl

end Depot.Yaml
