import CallFlow.Proofs.Automaton.Row

/-!
This module contains that nothing is read in the state for errors but extra tokens, and that it leads to no
other state: its row is never merged with another one. So with what holds of all rows, the automaton of a
grammar is well built (`wellBuilt_ofGrammar`).
-/

namespace CallFlow.Automaton

open CallFlow.Grammar

/-! The row. -/

namespace Row

/--
Nothing but extra tokens is read, and no other state is reached.
-/
structure LeadsNowhere (r : Row) : Prop where
  idle : ∀ as ∈ r.actions, Idle as
  gotos : ∀ q ∈ r.gotos, q = none

variable {r : Row}

theorem leadsNowhere_default : LeadsNowhere default := by
  constructor
  . intro as has
    exact absurd has (Array.not_mem_empty as)
  . intro q hq
    exact absurd hq (Array.not_mem_empty q)

theorem leadsNowhere_ofState (n : Numbering) {s : State} (h : ∀ x ∈ s.actions, Idle x.2)
    (hgotos : s.gotos = #[]) : LeadsNowhere (ofState n s) := by
  unfold ofState
  constructor
  . dsimp only
    rw [← Array.foldl_toList]
    apply forall_mem_foldl_setIfInBounds (P := Idle) Prod.fst
    . intro as has a ha
      rw [Array.eq_of_mem_replicate has] at ha
      exact absurd ha (Array.not_mem_empty a)
    . intro x hx
      exact h x (Array.mem_toList_iff.mp hx)
  . intro q hq
    rw [hgotos] at hq
    exact Array.eq_of_mem_replicate hq

theorem LeadsNowhere.mapTargets (h : LeadsNowhere r) (f : Nat → Nat) : LeadsNowhere (r.mapTargets f) := by
  unfold Row.mapTargets
  constructor
  . intro as has a ha
    rcases Array.mem_map.mp has with ⟨bs, hbs, rfl⟩
    rcases Array.mem_map.mp ha with ⟨b, hb, rfl⟩
    rcases h.idle bs hbs b hb with rfl | rfl
    . exact .inl rfl
    . exact .inr rfl
  . intro q hq
    rcases Array.mem_map.mp hq with ⟨p, hp, rfl⟩
    rw [h.gotos p hp]
    rfl

theorem LeadsNowhere.errorRow (h : LeadsNowhere r) (info : TokenInfo) (g : Productions)
    : LeadsNowhere (info.errorRow g r) := by
  unfold TokenInfo.errorRow
  constructor
  . apply forall_mem_foldl_setIfInBounds id h.idle
    intro c _ a ha
    rw [List.mem_toArray, List.mem_singleton] at ha
    exact .inr ha
  . exact h.gotos

theorem leadsNowhere_getD {rows : Array Row} (h : ∀ r ∈ rows[0]?, LeadsNowhere r)
    : LeadsNowhere (rows.getD 0 default) := by
  rw [Array.getD_eq_getD_getElem?]
  cases hr : rows[0]? with
  | none => exact leadsNowhere_default
  | some r => exact h r hr

end Row

/-! Its group. -/

/--
The first group, if there is one, has the first row in it and no other.
-/
def Partition.Apart (p : Partition) : Prop := ∀ group ∈ p.groups[0]?, group = #[0]

variable {rows : Array Row} {p : Partition} {bad : Array Nat → Nat → Nat → Bool}

theorem apart_byCore (h : ∀ i r, rows[i]? = some r → (r.core = 0 ↔ i = 0))
    : (Partition.byCore rows).Apart := by
  unfold Partition.byCore Partition.Apart
  dsimp only
  rw [← Array.foldl_toList, ← Array.foldl_toList, Array.toList_zipIdx]
  cases hrows : rows.toList with
  | nil =>
    intro group hgroup
    contradiction
  | cons first rest =>
    have hcore (i : Nat) (r : Row) (hr : (first :: rest)[i]? = some r) : r.core = 0 ↔ i = 0 := by
      rw [← hrows, Array.getElem?_toList] at hr
      exact h i r hr
    have hfirst : first.core = 0 := (hcore 0 first rfl).mpr rfl
    rw [List.zipIdx_cons, List.foldl_cons]
    apply List.foldlRecOn (motive := fun gs : Array (Array Nat) => ∀ group ∈ gs[0]?, group = #[0])
    . intro group hgroup
      rw [Option.mem_def, hfirst, Array.getElem?_modify, if_pos rfl, Array.getElem?_replicate] at hgroup
      split at hgroup
      . exact (Option.some.inj hgroup).symm
      . contradiction
    . intro gs hgs ⟨r, i⟩ hmem group hgroup
      have hi : 0 < i := List.le_snd_of_mem_zipIdx hmem
      have hr : (first :: rest)[i]? = some r := by
        rw [← List.mk_mem_zipIdx_iff_getElem?, List.zipIdx_cons]
        exact List.mem_cons_of_mem _ hmem
      have hne : r.core ≠ 0 := fun heq => Nat.ne_of_gt hi ((hcore i r hr).mp heq)
      rw [Option.mem_def, Array.getElem?_modify, if_neg hne] at hgroup
      exact hgs group hgroup

theorem apart_split (fuel g : Nat) (changed : Bool) (h : p.Apart)
    : (Partition.split bad fuel g p changed).1.Apart := by
  induction fuel generalizing g p changed with
  | zero => exact h
  | succ fuel ih =>
    unfold Partition.split
    split
    . exact h
    . next group hgroup =>
      dsimp only
      split
      . exact ih _ _ h
      . next hsize =>
        split
        . exact ih _ _ h
        . apply ih
          have hg : g ≠ 0 := by
            rintro rfl
            rw [h group hgroup] at hsize
            exact hsize Nat.one_lt_two
          have hlt := (Array.getElem?_eq_some_iff.mp hgroup).1
          intro group' hgroup'
          rw [Option.mem_def, Array.getElem?_push, Array.size_setIfInBounds, if_neg (by omega),
            Array.getElem?_setIfInBounds_ne hg] at hgroup'
          exact h group' hgroup'

theorem apart_settle (size fuel : Nat) (h : p.Apart) : (Partition.settle bad size fuel p).Apart := by
  induction fuel generalizing p with
  | zero => exact h
  | succ fuel ih =>
    unfold Partition.settle
    have hsplit : (Partition.split bad (2 * size + 1) 0 p false).1.Apart := apart_split _ 0 false h
    dsimp only
    split
    . exact ih hsplit
    . exact hsplit

theorem apart_ofRows (k : TokenRules) (h : ∀ i r, rows[i]? = some r → (r.core = 0 ↔ i = 0))
    : (Partition.ofRows k rows).Apart := by
  unfold Partition.ofRows
  dsimp only
  apply apart_settle
  apply apart_split
  exact apart_byCore h

/-! Its place. -/

theorem leadsNowhere_merged (hp : p.Apart) (h : ∀ r ∈ rows[0]?, r.LeadsNowhere)
    : ∀ r ∈ (p.merged rows)[0]?, r.LeadsNowhere := by
  intro r hr
  unfold Partition.merged at hr
  rw [Option.mem_def, ← Array.getElem?_toList, Array.toList_filterMap] at hr
  unfold Partition.Apart at hp
  rw [← Array.getElem?_toList] at hp
  cases hgroups : p.groups.toList with
  | nil =>
    rw [hgroups] at hr
    contradiction
  | cons group rest =>
    rw [hgroups] at hp hr
    rw [hp group rfl, List.filterMap_cons] at hr
    dsimp only at hr
    rw [List.getElem?_cons_zero, Option.some.injEq] at hr
    rw [← hr]
    exact (Row.leadsNowhere_getD h).mapTargets _

theorem getElem?_inUse (h : 0 < rows.size) : (inUse rows)[0]? = some true := by
  have hset (used : Array Bool) (q : Nat) (hused : used[0]? = some true)
      : (used.setIfInBounds q true)[0]? = some true := by
    have hlt := (Array.getElem?_eq_some_iff.mp hused).1
    rw [Array.getElem?_setIfInBounds]
    split
    . next hq => rw [if_pos (hq ▸ hlt)]
    . exact hused
  unfold inUse
  rw [← Array.foldl_toList]
  apply List.foldlRecOn (motive := fun used : Array Bool => used[0]? = some true)
  . apply hset
    rw [Array.getElem?_setIfInBounds, if_pos rfl, if_pos (Array.size_replicate.symm ▸ h)]
  . intro used hused r _
    apply List.foldlRecOn (motive := fun used : Array Bool => used[0]? = some true) _ _ hused
    intro used hused q _
    exact hset used q hused

theorem leadsNowhere_dropUnused (h : ∀ r ∈ rows[0]?, r.LeadsNowhere)
    : ∀ r ∈ (dropUnused rows)[0]?, r.LeadsNowhere := by
  intro r hr
  unfold dropUnused at hr
  dsimp only at hr
  rw [Option.mem_def, Array.getElem?_map, ← Array.getElem?_toList, Array.toList_filterMap,
    Array.toList_zipIdx] at hr
  rw [← Array.getElem?_toList] at h
  cases hrows : rows.toList with
  | nil =>
    rw [hrows] at hr
    contradiction
  | cons first rest =>
    have hsize : 0 < rows.size := by
      rw [← Array.length_toList, hrows]
      exact Nat.zero_lt_succ _
    have hused : (inUse rows).getD 0 false = true := by
      rw [Array.getD_eq_getD_getElem?, getElem?_inUse hsize, Option.getD_some]
    rw [hrows] at h hr
    rw [List.zipIdx_cons, List.filterMap_cons] at hr
    dsimp only at hr
    rw [if_pos hused] at hr
    dsimp only at hr
    rw [List.getElem?_cons_zero, Option.map_some, Option.some.injEq] at hr
    rw [← hr]
    exact (h first rfl).mapTargets _

theorem leadsNowhere_sortBySize (h : ∀ r ∈ rows[0]?, r.LeadsNowhere)
    : ∀ r ∈ (sortBySize rows)[0]?, r.LeadsNowhere := by
  intro r hr
  unfold sortBySize at hr
  dsimp only at hr
  rw [Option.mem_def, List.getElem?_toArray, List.map_append, List.map_cons, List.cons_append,
    List.getElem?_cons_zero, Option.some.injEq] at hr
  rw [← hr]
  exact (Row.leadsNowhere_getD h).mapTargets _

theorem leadsNowhere_mergeRows (k : TokenRules) (g : Productions)
    (hcore : ∀ i r, rows[i]? = some r → (r.core = 0 ↔ i = 0)) (h : ∀ r ∈ rows[0]?, r.LeadsNowhere)
    : ∀ r ∈ (mergeRows k g rows)[0]?, r.LeadsNowhere := by
  unfold mergeRows
  apply leadsNowhere_sortBySize
  apply leadsNowhere_dropUnused
  intro r hr
  rw [Option.mem_def, Array.getElem?_map] at hr
  rcases Option.map_eq_some_iff.mp hr with ⟨s, hs, rfl⟩
  exact (leadsNowhere_merged (apart_ofRows k hcore) h s hs).mapTargets _

/-! The automaton. -/

/--
What the parser takes from its automaton: only tokens and the end have actions, what is reduced to is a symbol
of the grammar, and after an error nothing is read but extra tokens before a state is gone back to.
-/
structure WellBuilt (a : Automaton) : Prop where
  lt_firstRule : ∀ state c, a.actions state c ≠ #[] → c < a.numbering.firstRule
  reduces : ∀ state c, Reduces a.numbering (a.actions state c)
  idle : ∀ c, Idle (a.actions errorState c)
  nextState : ∀ c, a.nextState errorState c = errorState

theorem lt_total_of_nextState {a : Automaton} {state : Nat} {c : SymCode}
    (h : a.nextState state c ≠ errorState) : c < a.numbering.total :=
  Nat.lt_of_not_le fun hle => h (if_pos hle)

namespace WellBuilt

variable {a : Automaton} {state : Nat} {c : SymCode} {x : Action}

theorem lt_total (h : WellBuilt a) (hx : x ∈ a.actions state c) : c < a.numbering.total := by
  apply Nat.lt_of_lt_of_le (h.lt_firstRule state c _) (Nat.le_add_right _ _)
  intro hempty
  rw [hempty] at hx
  exact Array.not_mem_empty x hx

theorem lt_total_of_hasActions (h : WellBuilt a) (hc : a.hasActions state c) : c < a.numbering.total := by
  unfold hasActions at hc
  rw [Bool.not_eq_true', Array.isEmpty_eq_false_iff] at hc
  exact Nat.lt_of_lt_of_le (h.lt_firstRule state c hc) (Nat.le_add_right _ _)

/--
Nothing but an extra token or an error is read in the state for errors.
-/
theorem ne_errorState (h : WellBuilt a) (hx : x ∈ a.actions state c) (hextra : x ≠ .shiftExtra)
    (hrecover : x ≠ .recover) : state ≠ errorState := by
  rintro rfl
  exact (h.idle c x hx).elim hextra hrecover

end WellBuilt

theorem leadsNowhere_ofGrammar (grammar : Grammar) : ∀ r ∈ (ofGrammar grammar).rows[0]?, r.LeadsNowhere := by
  have hctx := size_additions_ofProductions (Productions.ofGrammar grammar)
  unfold ofGrammar
  dsimp only
  generalize Context.ofProductions (Productions.ofGrammar grammar) = ctx at hctx ⊢
  apply leadsNowhere_mergeRows
  . intro i r hr
    rw [Array.getElem?_modify, Array.getElem?_map] at hr
    split at hr
    . rcases Option.map_eq_some_iff.mp hr with ⟨t, ht, rfl⟩
      rcases Option.map_eq_some_iff.mp ht with ⟨s, hs, rfl⟩
      exact (Builder.built_ofContext hctx i s hs).core
    . rcases Option.map_eq_some_iff.mp hr with ⟨s, hs, rfl⟩
      exact (Builder.built_ofContext hctx i s hs).core
  . intro r hr
    rw [Option.mem_def, Array.getElem?_modify, if_pos rfl, Array.getElem?_map] at hr
    rcases Option.map_eq_some_iff.mp hr with ⟨t, ht, rfl⟩
    rcases Option.map_eq_some_iff.mp ht with ⟨s, hs, rfl⟩
    have hbuilt := Builder.built_ofContext hctx 0 s hs
    exact (Row.leadsNowhere_ofState _ (hbuilt.idle rfl) (hbuilt.gotos rfl)).errorRow _ _

theorem wellBuilt_ofGrammar (grammar : Grammar) : WellBuilt (ofGrammar grammar) := by
  have hfits := fits_ofGrammar grammar
  have hnowhere := leadsNowhere_ofGrammar grammar
  generalize ofGrammar grammar = a at hfits hnowhere
  have hidle (c : SymCode) : Idle (a.actions errorState c) := by
    unfold actions
    split
    . next r hr =>
      rw [Array.getD_eq_getD_getElem?]
      cases has : r.actions[c]? with
      | none => exact fun x hx => absurd hx (Array.not_mem_empty x)
      | some as => exact (hnowhere r hr).idle as (Array.mem_of_getElem? has)
    . exact fun x hx => absurd hx (Array.not_mem_empty x)
  constructor
  . intro state c
    unfold actions
    split
    . next r hr =>
      have hsize := (hfits r (Array.mem_of_getElem? hr)).size_le
      intro hne
      apply Nat.lt_of_not_le
      intro hle
      rw [Array.getD_eq_getD_getElem?, Array.getElem?_eq_none (Nat.le_trans hsize hle)] at hne
      exact hne rfl
    . intro hne
      exact absurd rfl hne
  . intro state c
    unfold actions
    split
    . next r hr =>
      rw [Array.getD_eq_getD_getElem?]
      cases has : r.actions[c]? with
      | none => exact reduces_empty _
      | some as => exact (hfits r (Array.mem_of_getElem? hr)).reduces as (Array.mem_of_getElem? has)
    . exact reduces_empty _
  . exact hidle
  . intro c
    unfold nextState
    split
    . rfl
    . split
      . unfold goto
        split
        . next r hr =>
          rw [Array.getD_eq_getD_getElem?]
          cases hq : r.gotos[c - a.numbering.firstRule]? with
          | none => rfl
          | some q =>
            rw [(hnowhere r hr).gotos q (Array.mem_of_getElem? hq)]
            rfl
        . rfl
      . split
        . next q rep hback =>
          rcases hidle c _ (Array.mem_of_back? hback) with heq | heq
          . contradiction
          . contradiction
        . rfl
        . rfl

end CallFlow.Automaton
