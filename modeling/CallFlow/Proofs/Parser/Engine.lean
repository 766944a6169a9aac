import CallFlow.Proofs.Parser.Lex
import CallFlow.Proofs.Parser.Recover

/-!
This module contains that the parser keeps its stack valid from round to round (`ensures_loop`), so that every
tree that it gives for a text is sound and costs something just if there is an error in it (`whole_parse`).
Text that fits nothing is never read as a token (`ensures_act_error`).
-/

namespace CallFlow.Parser

open CallFlow.Text CallFlow.Automaton

namespace Engine

variable {env : Env} {r : Run} {v : Nat} {t : Subtree}

/-! Advancing. -/

theorem ensures_act (fuel state : Nat) (hr : Valid env r) (ht : Sound env.automaton env.text t)
    (hcost : t.info.errorCost = 0) (hleaf : t.children = []) (hv : Stands r v t.info.before.byte)
    (hlt : v < r.heads.size) (hstate : r.stateOf v = state)
    : Ensures env r (act v fuel state t) fun _ r' => Onward env r r' := by
  induction fuel generalizing state t r with
  | zero => exact Stack.ensures_pause hr ht hv.byte_le
  | succ fuel ih =>
    unfold act
    simp only [ensures_bind, ensures_read]
    rw [← Array.forIn_toList]
    -- No head but `v` is moved before the last action, and new ones stand where `v` stood or before that.
    apply Ensures.forIn (fun xs s r' => s.1 = none ∧ Valid env r' ∧
      Frame r.heads.size v t.info.before.byte r r' ∧ (∀ w ∈ s.2.2, r.heads.size ≤ w) ∧
      r'.stateOf v = state ∧ ∀ x ∈ xs, x ∈ env.automaton.actions state t.symbol)
    . refine ⟨rfl, hr, Frame.refl hr hv, ?_, hstate, ?_⟩
      . intro w hw
        contradiction
      . intro x hx
        exact Array.mem_toList_iff.mp hx
    . rintro x _ ⟨_, reduced, last⟩ r' ⟨rfl, hr', hframe, hlast, hstate', hactions⟩
      rw [List.forall_mem_cons] at hactions
      rcases hactions with ⟨hx, hactions⟩
      have hv' := hframe.fresh v (.inr rfl)
      have hlt' := Nat.lt_of_lt_of_le hlt hframe.le_size
      have honward := hframe.onward hr'
      have hclean : ¬ t.Loose env.automaton := Subtree.not_loose_of_lt (hr.automaton.lt_total hx)
      have hleads (next : Nat) (h : next ≠ errorState → r'.stateOf v ≠ errorState)
          : Leads env r'.nodes (r'.head v).node [t] next t.info.stop.byte :=
        ⟨Row.singleton ht hv'.byte_le (Nat.le_refl _), fun hs => ⟨h hs, List.forall_mem_singleton.mpr hclean⟩⟩
      cases x with
      | shift next isRepetition =>
        have hne := hr.automaton.ne_errorState hx Automaton.Action.noConfusion Automaton.Action.noConfusion
        rw [← hstate'] at hne
        dsimp only
        split
        . rw [ensures_bind]
          exact honward.ensures
            (ensures_shift hr' hv'.lookahead (hleads next fun _ => hne) fun _ => hclean)
        . exact ⟨rfl, hr', hframe, hlast, hstate', hactions⟩
      | shiftExtra =>
        have hsame (hs : state ≠ errorState) : r'.stateOf v ≠ errorState := by
          rw [hstate']
          exact hs
        dsimp only
        rw [ensures_bind]
        exact honward.ensures (ensures_shift hr' hv'.lookahead (hleads state hsame) fun _ => hclean)
      | reduce red =>
        have hred : Allows env.automaton (r'.stateOf v) red := by
          rw [hstate']
          exact ⟨_, hx⟩
        dsimp only
        rw [ensures_bind]
        apply (ensures_reduce hr' hred hv'.byte_le).imp
        rintro res r'' ⟨hr'', hframe', hres⟩
        have hle := hframe.le_size
        have hstate'' := (hframe'.stateOf_eq hr' hlt' (Nat.ne_of_lt hlt')).trans hstate'
        have hframe := hframe.beside hframe' hr'
        split
        . next w =>
          refine ⟨rfl, hr'', hframe, ?_, hstate'', hactions⟩
          rintro _ ⟨⟩
          rw [hres w rfl]
          exact hle
        . exact ⟨rfl, hr'', hframe, hlast, hstate'', hactions⟩
      | accept =>
        have hne := hr.automaton.ne_errorState hx Automaton.Action.noConfusion Automaton.Action.noConfusion
        rw [← hstate'] at hne
        have hrow : Row env.automaton env.text (byteAt r'.nodes (r'.head v).node) [] t.info.before.byte :=
          hv'.byte_le
        dsimp only
        rw [ensures_bind]
        exact honward.ensures (ensures_accept hr' hv'.lookahead ht hrow
          (.inl ⟨hne, List.forall_mem_singleton.mpr hclean⟩))
      | recover =>
        dsimp only
        rw [ensures_bind]
        exact honward.ensures (ensures_recover hr' ht hv' hlt')
    . rintro ⟨_, reduced, last⟩ r' ⟨rfl, hr', hframe, hlast, hstate', _⟩
      have hv' := hframe.fresh v (.inr rfl)
      have hlt' := Nat.lt_of_lt_of_le hlt hframe.le_size
      have honward := hframe.onward hr'
      dsimp only
      split
      . next w =>
        rw [ensures_bind]
        apply (Stack.ensures_renumber_frame hr' hframe (.inl rfl) (hlast w rfl)).imp
        rintro _ r'' ⟨hr'', hframe'⟩
        rw [ensures_bind, Stack.ensures_state]
        have hlt'' := Nat.lt_of_lt_of_le hlt hframe'.le_size
        exact (hframe'.onward hr'').ensures
          (ih _ hr'' ht hcost hleaf (hframe'.fresh v (.inr rfl)) hlt'' rfl)
      . split
        . exact honward.ensures (Stack.ensures_halt_onward hr')
        . split
          . next hword =>
            rw [Bool.and_eq_true] at hword
            have hsound := ht.setSymbol _ hcost hleaf (hr.automaton.lt_total_of_hasActions hword.2)
            apply honward.ensures
            apply ih _ hr' hsound _ _ _ hlt' hstate'
            . rw [Subtree.info_setSymbol]
              exact hcost
            . rw [Subtree.children_setSymbol]
              exact hleaf
            . rw [Subtree.info_setSymbol]
              exact hv'
          . split
            . exact honward.ensures (ensures_recover hr' ht hv' hlt')
            . exact honward.ensures (Stack.ensures_pause hr' ht hv'.byte_le)

/--
Text that fits nothing is not read as a token: the way waits, or it goes on recovering.
-/
theorem ensures_act_error {fuel state : Nat} {Q : Unit → Run → Prop} (ha : WellBuilt env.automaton)
    (ht : t.symbol = env.automaton.errorSymbol) (hword : t.info.isKeyword = false)
    : Ensures env r (act v (fuel + 1) state t) Q ↔
        Ensures env r (if state == errorState then recover v t else Stack.pause v t) Q := by
  have hactions : env.automaton.actions state t.symbol = #[] := by
    apply Classical.byContradiction
    intro hne
    have hlt := ha.lt_firstRule state t.symbol hne
    rw [ht] at hlt
    exact Nat.not_lt_of_le (Nat.le_add_right _ _) hlt
  unfold act
  simp only [ensures_bind, ensures_read]
  rw [hactions, ← Array.forIn_toList, List.forIn_nil, ensures_pure]
  dsimp only
  simp only [hword, Bool.false_and, if_neg Bool.false_ne_true]

theorem ensures_advance (hr : Valid env r) (hv : (r.head v).activity = .active) (hlt : v < r.heads.size)
    : Ensures env r (advance v) fun _ r' => Onward env r r' := by
  unfold advance
  simp only [ensures_bind, Stack.ensures_state]
  apply (Lex.ensures_next hr).imp
  rintro t r' ⟨rfl, ht, hle, hcost, hleaf⟩
  simp only [ensures_get]
  exact ensures_act _ _ hr ht hcost hleaf ⟨(hr.headOk v).active hv, hle⟩ hlt rfl

theorem ensures_advanceFar (fuel far : Nat) (hr : Valid env r) (hlt : v < r.heads.size)
    : Ensures env r (advanceFar v fuel far) fun _ r' => Valid env r' := by
  induction fuel generalizing far r with
  | zero => exact hr
  | succ fuel ih =>
    unfold advanceFar
    simp only [ensures_bind, Stack.ensures_isActive]
    split
    . exact hr
    . next hactive =>
      rw [Bool.not_eq_true', Bool.not_eq_false, beq_iff_eq] at hactive
      rw [ensures_bind]
      apply (ensures_advance hr hactive hlt).imp
      intro _ r' honward
      simp only [ensures_bind, Stack.ensures_place]
      split
      . exact honward.valid
      . exact ih far honward.valid (Nat.lt_of_lt_of_le hlt honward.size_le)

theorem ensures_advanceAll (fuel rounds v far : Nat) (hr : Valid env r)
    : Ensures env r (advanceAll fuel rounds v far) fun _ r' => Valid env r' := by
  induction rounds generalizing v far r with
  | zero => exact hr
  | succ rounds ih =>
    unfold advanceAll
    simp only [ensures_bind, Stack.ensures_count]
    split
    . exact hr
    . next hlt =>
      rw [ensures_bind]
      apply (ensures_advanceFar fuel far hr (Nat.lt_of_not_le hlt)).imp
      intro far' r' hr'
      exact ih (v + 1) far' hr'

/-! Keeping the better ways. -/

theorem ensures_siftOne (mine : Standing) (fuel i j : Nat) (hr : Valid env r)
    : Ensures env r (siftOne mine fuel i j) fun _ r' => Valid env r' := by
  induction fuel generalizing i j r with
  | zero => exact hr
  | succ fuel ih =>
    unfold siftOne
    split
    . exact hr
    . rw [ensures_bind]
      apply (ensures_standing hr).imp
      intro other r₁ hstill
      have hr₁ := hstill.valid
      split
      . rw [ensures_bind]
        apply (Stack.ensures_remove hr₁).imp
        rintro _ r₂ ⟨hr₂, _⟩
        exact hr₂
      . rw [ensures_bind]
        apply (Stack.ensures_merge_valid hr₁).imp
        intro merged r₂ hr₂
        split
        . exact hr₂
        . exact ih i (j + 1) hr₂
      . rw [ensures_bind]
        apply (Stack.ensures_merge_valid hr₁).imp
        intro merged r₂ hr₂
        split
        . exact hr₂
        . exact ih i (j + 1) hr₂
      . rw [ensures_bind]
        apply (Stack.ensures_merge_valid hr₁).imp
        intro merged r₂ hr₂
        split
        . exact hr₂
        . rw [ensures_bind]
          apply (Stack.ensures_swap hr₂).imp
          intro _ r₃ hr₃
          exact ih i (j + 1) hr₃
      . rw [ensures_bind]
        apply (Stack.ensures_remove hr₁).imp
        rintro _ r₂ ⟨hr₂, _⟩
        exact ih (i - 1) j hr₂

theorem ensures_sift (fuel i : Nat) (least : Option Nat) (hr : Valid env r)
    : Ensures env r (sift fuel i least) fun _ r' => Valid env r' := by
  induction fuel generalizing i least r with
  | zero => exact hr
  | succ fuel ih =>
    unfold sift
    simp only [ensures_bind, Stack.ensures_count]
    split
    . exact hr
    . rw [ensures_bind, Stack.ensures_isHalted]
      split
      . rw [ensures_bind]
        apply (Stack.ensures_remove hr).imp
        rintro _ r' ⟨hr', _⟩
        exact ih i least hr'
      . rw [ensures_bind]
        apply (ensures_standing hr).imp
        intro mine r₁ hstill
        simp only [ensures_bind]
        apply (ensures_siftOne mine _ i 0 hstill.valid).imp
        rintro ⟨sifted, i'⟩ r₂ hr₂
        cases sifted with
        | kept => exact ih (i' + 1) _ hr₂
        | gone => exact ih i' _ hr₂

theorem ensures_takeUp (fuel i : Nat) (running : Bool) (count : Nat) (least : Option Nat) (hr : Valid env r)
    (hcount : count ≤ r.heads.size)
    : Ensures env r (takeUp fuel i running count least) fun _ r' => Valid env r' := by
  induction fuel generalizing i running count least r with
  | zero => exact hr
  | succ fuel ih =>
    unfold takeUp
    split
    . exact hr
    . next hlt =>
      simp only [ensures_bind, Stack.ensures_isPaused]
      split
      . simp only [ensures_bind, ensures_get]
        split
        . rw [ensures_bind]
          apply Stack.ensures_errorCost
          intro cost
          rw [ensures_bind]
          apply (Stack.ensures_resume hr).imp
          rintro lookahead r₁ ⟨honward, hlookahead, hstands⟩
          have hcount₁ := Nat.le_trans hcount honward.size_le
          split
          . next t =>
            rw [ensures_bind]
            have ht := (hr.headOk i).lookahead t hlookahead.symm
            apply (ensures_handleError honward.valid ht.1 (hstands.of_le ht.2) (by omega)).imp
            intro _ r₂ honward₂
            exact ih _ _ _ _ honward₂.valid (Nat.le_trans hcount₁ honward₂.size_le)
          . exact ih _ _ _ _ honward.valid hcount₁
        . rw [ensures_bind]
          apply (Stack.ensures_remove hr).imp
          rintro _ r' ⟨hr', hmoved⟩
          have := hmoved.size_le_succ
          exact ih _ _ _ _ hr' (by omega)
      . exact ih _ _ _ _ hr hcount

theorem ensures_condense (hr : Valid env r) : Ensures env r condense fun _ r' => Valid env r' := by
  unfold condense
  simp only [ensures_bind, Stack.ensures_count]
  apply (ensures_sift _ 0 none hr).imp
  intro least r₁ hr₁
  apply (Stack.ensures_keepFirst hr₁).imp
  intro _ r₂ hkept
  exact ensures_takeUp _ 0 false _ least hkept.valid (Nat.le_refl _)

theorem ensures_loop (fuel rounds far : Nat) (hr : Valid env r)
    : Ensures env r (loop fuel rounds far) fun _ r' => Valid env r' := by
  induction rounds generalizing far r with
  | zero => exact hr
  | succ rounds ih =>
    unfold loop
    simp only [ensures_bind, Stack.ensures_count, ensures_get]
    apply (ensures_advanceAll fuel fuel 0 far hr).imp
    intro far r₁ hr₁
    apply (ensures_condense hr₁).imp
    intro least r₂ hr₂
    split
    . split
      . split
        . exact hr₂
        . split
          . exact hr₂
          . exact ih far hr₂
      . exact hr₂
    . split
      . exact hr₂
      . exact ih far hr₂

end Engine

/--
A run begins on the bottom of the stack.
-/
theorem valid_empty (env : Env) (h : WellBuilt env.automaton) : Valid env {} := by
  constructor
  . exact h
  . exact Nat.one_pos
  . rfl
  . exact Nat.one_ne_zero
  . intro n hn
    rw [List.mem_toArray, List.mem_singleton] at hn
    rw [hn]
    refine ⟨IsPlace.origin env.text, ?_⟩
    intro l hl
    exact absurd hl (Array.not_mem_empty l)
  . intro h hh
    rw [List.mem_toArray, List.mem_singleton] at hh
    rw [hh]
    refine ⟨Nat.one_pos, fun _ => rfl, ?_⟩
    intro t ht
    contradiction
  . intro t ht
    contradiction

theorem whole_parse {a : Automaton} (h : WellBuilt a) (text : Array Char) : Whole a text (parse a text) := by
  have hnil : Row a text 0 [] 0 := Nat.le_refl 0
  have hvalid := Engine.ensures_loop (64 * (text.size + 64)) (64 * (text.size + 64)) 0
    (valid_empty ⟨a, text⟩ h)
  unfold parse
  unfold Ensures at hvalid
  dsimp only at hvalid ⊢
  generalize StateT.run _ _ = res at hvalid ⊢
  rcases res with ⟨_, run⟩
  dsimp only
  cases hfinished : run.finished with
  | none => exact hnil.whole_node 0 (IsPlace.origin text) (.inl rfl)
  | some t => exact hvalid.finished t hfinished

end CallFlow.Parser
