import CallFlow.Proofs.Functions.Extract

/-!
This module compares the calls in the record of a name with the calls of the last definition of the name
itself. They differ exactly if the definition stands within another one of its name that has calls after
it, or if nameless definitions within it have calls (`calls_eq_ownCalls_iff`).
-/

namespace CallFlow.Functions

open CallFlow.Syntax

/--
A node is a definition, with or without a name.
-/
def IsDefinition (root : Node) (e : Path) : Prop :=
  ∃ n ∈ root.at? e, n.kind = "function_definition"

instance (root : Node) (e : Path) : Decidable (IsDefinition root e) :=
  inferInstanceAs (Decidable (∃ n ∈ root.at? e, n.kind = "function_definition"))

/--
A node stands in the body of the definition at `d` and of no definition within this one.
-/
structure Own (root : Node) (d p : Path) : Prop where
  inBody : InBody root d p
  notInner : ∀ e ∈ root.paths, IsDefinition root e → d <+: e → e ≠ d → ¬InBody root e p

instance (root : Node) (d p : Path) : Decidable (Own root d p) :=
  decidable_of_iff
    (InBody root d p ∧
      ∀ e ∈ root.paths, IsDefinition root e → d <+: e → e ≠ d → ¬InBody root e p)
    ⟨fun h => ⟨h.1, h.2⟩, fun h => ⟨h.inBody, h.notInner⟩⟩

/--
The functions that the definition at `d` calls itself, in pre-order.
-/
def ownCalls (root : Node) (d : Path) : List String :=
  (root.paths.filter (Own root d ·)).filterMap (calleeAt? root)

/--
A node comes after the definition at `d` and belongs to one around it that has the same name.
-/
def Outer (root : Node) (d p : Path) : Prop :=
  Path.Before d p ∧
    ∃ e ∈ root.paths, Innermost root e p ∧ definedAt? root e = definedAt? root d ∧
      e <+: d ∧ e ≠ d

instance (root : Node) (d p : Path) : Decidable (Outer root d p) :=
  inferInstanceAs (Decidable (_ ∧ ∃ e ∈ root.paths, _))

/--
A node belongs to the function at `d`, but stands in the body of a nameless definition within this one.
-/
def Nameless (root : Node) (d p : Path) : Prop :=
  Innermost root d p ∧
    ∃ e ∈ root.paths, IsDefinition root e ∧ definedAt? root e = none ∧ d <+: e ∧ InBody root e p

instance (root : Node) (d p : Path) : Decidable (Nameless root d p) :=
  inferInstanceAs (Decidable (_ ∧ ∃ e ∈ root.paths, _))

theorem filterMap_filter_sublist {α β : Type} (l : List α) (P Q : α → Bool) (f : α → Option β)
    (h : ∀ a ∈ l, P a = true → Q a = true)
    : ((l.filter P).filterMap f).Sublist ((l.filter Q).filterMap f) := by
  have hP : l.filter P = (l.filter Q).filter P := by
    rw [List.filter_filter]
    apply List.filter_congr
    intro a ha
    cases hPa : P a with
    | false => simp
    | true => simp [h a ha hPa]
  rw [hP]
  apply List.Sublist.filterMap
  apply List.filter_sublist

/--
Of two selections from a list, one within the other, the results are the same only if the smaller one
loses no result.
-/
theorem filterMap_filter_eq_iff {α β : Type} (l : List α) (P Q : α → Bool) (f : α → Option β)
    (h : ∀ a ∈ l, P a = true → Q a = true)
    : (l.filter P).filterMap f = (l.filter Q).filterMap f
        ↔
      ∀ a ∈ l, Q a = true → (f a).isSome → P a = true
      := by
  induction l with
  | nil => simp
  | cons a l ih =>
    rw [List.forall_mem_cons] at h
    specialize ih h.2
    rw [List.forall_mem_cons, ← ih]
    by_cases hP : P a = true
    . have hQ := h.1 hP
      rw [List.filter_cons_of_pos hP, List.filter_cons_of_pos hQ, List.filterMap_cons,
        List.filterMap_cons]
      cases f a with
      | none => simp [hP]
      | some b => simp [hP]
    . rw [List.filter_cons_of_neg hP]
      by_cases hQ : Q a = true
      . rw [List.filter_cons_of_pos hQ, List.filterMap_cons]
        cases f a with
        | none => simp
        | some b =>
          -- Without this result the smaller selection is too short.
          have hlen := (filterMap_filter_sublist l P Q f h.2).length_le
          constructor
          . intro heq
            rw [heq, List.length_cons] at hlen
            omega
          . rintro ⟨hPa, _⟩
            apply absurd (hPa hQ rfl) hP
      . rw [List.filter_cons_of_neg hQ]
        simp [hQ]

theorem isDefinition_of_definedAt? {root : Node} {e : Path} (h : (definedAt? root e).isSome)
    : IsDefinition root e := by
  unfold definedAt? at h
  cases hn : root.at? e with
  | none => simp [hn] at h
  | some n =>
    refine ⟨n, hn, ?_⟩
    rw [hn, Option.bind_some] at h
    unfold definedName? at h
    split at h
    . assumption
    . simp at h

theorem innermost_of_own {root : Node} {d p : Path} (hd : (definedAt? root d).isSome)
    (h : Own root d p) : Innermost root d p := by
  refine ⟨hd, h.inBody, ?_⟩
  intro e hmem he hbody
  cases List.prefix_or_prefix_of_prefix (isPrefix_of_inBody hbody) (isPrefix_of_inBody h.inBody) with
  | inl hed => exact hed
  | inr hde =>
    by_cases heq : e = d
    . subst heq
      apply List.prefix_refl
    . exfalso
      apply h.notInner e hmem (isDefinition_of_definedAt? he) hde heq hbody

theorem counts_of_innermost {root : Node} {name : String} {d p : Path}
    (hd : LastDefinition root name d) (h : Innermost root d p) : Counts root name p := by
  rw [counts_iff_of_before hd (before_of_inBody h.inBody)]
  exact ⟨d, mem_paths_of_definedAt? h.named, h, hd.defined⟩

theorem not_own_of_innermost {root : Node} {d e p : Path} (he : Innermost root e p) (hne : e ≠ d)
    (hd : (definedAt? root d).isSome) : ¬Own root d p := by
  intro h
  apply hne
  apply innermost_unique he
  apply innermost_of_own hd h

/--
What belongs to a function without being its own stands in a nameless definition: one with a name would
be further in than the innermost.
-/
theorem nameless_of_not_own {root : Node} {d p : Path} (h : Innermost root d p) (hown : ¬Own root d p)
    : Nameless root d p := by
  refine ⟨h, ?_⟩
  by_contra hnone
  apply hown
  refine ⟨h.inBody, ?_⟩
  intro e hmem hdef hde hne hbody
  apply hnone
  refine ⟨e, hmem, hdef, ?_, hde, hbody⟩
  rw [← Option.not_isSome_iff_eq_none]
  intro hsome
  apply hne
  have hed := h.isPrefix e hmem hsome hbody
  apply List.IsPrefix.eq_of_length_le hed hde.length_le

theorem not_own_of_nameless {root : Node} {d p : Path} (h : Nameless root d p) : ¬Own root d p := by
  rcases h with ⟨hd, e, hmem, hdef, hnone, hde, hbody⟩
  intro hown
  apply hown.notInner e hmem hdef hde _ hbody
  intro heq
  have := hd.named
  rw [← heq, hnone] at this
  contradiction

/--
An earlier definition of a name that has nodes after the last one is around the last one.
-/
theorem outer_of_counts {root : Node} {name : String} {d e p : Path} (hd : LastDefinition root name d)
    (hcounts : Counts root name p) (hmem : e ∈ root.paths) (he : Innermost root e p)
    (hname : definedAt? root e = some name) (hne : e ≠ d) : Outer root d p := by
  have hbefore := hcounts.after d hd.mem_paths hd.defined
  have hed : Path.Before e d := by
    cases hd.last e hmem hname with
    | inl h => exact absurd h hne
    | inr h => exact h
  refine ⟨hbefore, e, hmem, he, ?_, ?_, hne⟩
  . rw [hname, hd.defined]
  . apply Path.isPrefix_of_between (isPrefix_of_inBody he.inBody) hed hbefore

/--
What counts for a name without being the last definition's own.
-/
theorem counts_and_not_own_iff {root : Node} {name : String} {d : Path}
    (hd : LastDefinition root name d) (p : Path)
    : Counts root name p ∧ ¬Own root d p ↔ Outer root d p ∨ Nameless root d p := by
  constructor
  . rintro ⟨hcounts, hown⟩
    rcases hcounts.scope with ⟨e, hmem, he, hname⟩
    by_cases heq : e = d
    . right
      rw [heq] at he
      apply nameless_of_not_own he hown
    . left
      apply outer_of_counts hd hcounts hmem he hname heq
  . intro h
    cases h with
    | inl h =>
      rcases h with ⟨hbefore, e, hmem, he, hname, _, hne⟩
      constructor
      . rw [counts_iff_of_before hd hbefore]
        refine ⟨e, hmem, he, ?_⟩
        rw [hname, hd.defined]
      . apply not_own_of_innermost he hne hd.named
    | inr h =>
      constructor
      . apply counts_of_innermost hd h.1
      . apply not_own_of_nameless h

/--
The record of a name has the calls of the last definition of the name itself if and only if no call goes
to a definition of this name around it from then on, and none stands in a nameless definition within it.
-/
theorem calls_eq_ownCalls_iff (root : Node) (name : String) (d : Path)
    (hd : LastDefinition root name d)
    : ((extract root).get? name).map Record.calls = some (ownCalls root d)
        ↔
      ∀ p ∈ root.paths, (calleeAt? root p).isSome → ¬Outer root d p ∧ ¬Nameless root d p
      := by
  rcases hd.exists_at? with ⟨n, hn⟩
  -- What is the definition's own counts, so the two lists differ by what counts without being its own.
  have hown : ∀ p ∈ root.paths, decide (Own root d p) = true →
      decide (Counts root name p) = true := by
    intro p _ h
    rw [decide_eq_true_eq] at h ⊢
    apply counts_of_innermost hd
    apply innermost_of_own hd.named h
  rw [get?_extract hd hn, Option.map_some, Option.some.injEq]
  unfold callsOf ownCalls
  rw [eq_comm, filterMap_filter_eq_iff _ _ _ _ hown]
  simp only [decide_eq_true_eq]
  apply forall_congr'
  intro p
  apply imp_congr_right
  intro _
  have hiff := counts_and_not_own_iff hd p
  constructor
  . intro h hcallee
    rw [← not_or, ← hiff]
    rintro ⟨hcounts, hnot⟩
    apply hnot
    apply h hcounts hcallee
  . intro h hcounts hcallee
    specialize h hcallee
    rw [← not_or, ← hiff] at h
    by_contra hnot
    apply h
    exact ⟨hcounts, hnot⟩

theorem calls_eq_ownCalls_iff_decorated
    : LastDefinition decorated "f" [2, 2, 1] ∧
        ((extract decorated).get? "f").map Record.calls = some (ownCalls decorated [2, 2, 1]) := by
  have hlast : LastDefinition decorated "f" [2, 2, 1] := by decide +kernel
  refine ⟨hlast, ?_⟩
  rw [calls_eq_ownCalls_iff decorated "f" [2, 2, 1] hlast]
  decide +kernel

/--
A function that defines itself anew in its body and calls `c` afterwards.
-/
def redefined : Node where
  kind := "module"
  children := [
    functionNode "f" [] [
      callNode "a" [],
      functionNode "f" [] [callNode "b" []],
      callNode "c" []
    ]
  ]

theorem calls_ne_ownCalls_redefined
    : LastDefinition redefined "f" [0, 2, 1] ∧
        ((extract redefined).get? "f").map Record.calls = some ["b", "c"] ∧
        ownCalls redefined [0, 2, 1] = ["b"] := by
  decide +kernel

end CallFlow.Functions
