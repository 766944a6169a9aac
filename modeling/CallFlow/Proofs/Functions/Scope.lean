import CallFlow.Proofs.Functions.Builtin
import CallFlow.Proofs.Functions.Walk

/-!
This module contains what definitions, bodies and calls of a tree are by their paths, and that the walk
attributes a node to the innermost named function in whose body it stands (`scopeAt_eq_some_iff`).
-/

namespace CallFlow.Functions

open CallFlow.Syntax

/--
The name that the node at a path gives to a function.
-/
def definedAt? (root : Node) (d : Path) : Option String :=
  (root.at? d).bind definedName?

/--
The path of the body of the node at a path.
-/
def bodyAt? (root : Node) (d : Path) : Option Path :=
  (root.at? d).bind fun n => (bodyIndex? n).map fun i => d ++ [i]

/--
A path leads into the body of the node at `d`.
-/
def InBody (root : Node) (d p : Path) : Prop :=
  ∃ b ∈ bodyAt? root d, b <+: p

instance (root : Node) (d p : Path) : Decidable (InBody root d p) :=
  inferInstanceAs (Decidable (∃ b ∈ bodyAt? root d, b <+: p))

/--
The function at `d` is the innermost of the named functions in whose bodies a node stands.
-/
structure Innermost (root : Node) (d p : Path) : Prop where
  named : (definedAt? root d).isSome
  inBody : InBody root d p
  isPrefix : ∀ e ∈ root.paths, (definedAt? root e).isSome → InBody root e p → e <+: d

instance (root : Node) (d p : Path) : Decidable (Innermost root d p) :=
  decidable_of_iff
    ((definedAt? root d).isSome ∧ InBody root d p ∧
      ∀ e ∈ root.paths, (definedAt? root e).isSome → InBody root e p → e <+: d)
    ⟨fun h => ⟨h.1, h.2.1, h.2.2⟩, fun h => ⟨h.named, h.inBody, h.isPrefix⟩⟩

/--
The name by which the node at a path calls a function, unless it is that of a built-in one.
-/
def calleeAt? (root : Node) (p : Path) : Option String :=
  match root.at? p with
  | none => none
  | some n =>
    if n.kind = "call" then
      match n.child? "function" with
      | none => none
      | some f => if f.kind = "identifier" ∧ f.text ∉ builtins then some f.text else none
    else none

theorem definedAt?_of_at? {root n : Node} {d : Path} (h : root.at? d = some n)
    : definedAt? root d = definedName? n := by
  unfold definedAt?
  rw [h, Option.bind_some]

theorem bodyAt?_of_at? {root n : Node} {d : Path} (h : root.at? d = some n)
    : bodyAt? root d = (bodyIndex? n).map fun i => d ++ [i] := by
  unfold bodyAt?
  rw [h, Option.bind_some]

theorem mem_paths_of_definedAt? {root : Node} {d : Path} (h : (definedAt? root d).isSome)
    : d ∈ root.paths := by
  rw [Node.mem_paths_iff]
  apply Option.isSome_of_isSome_bind h

theorem bodyAt?_eq_some_concat {root : Node} {d p : Path} {i : Nat}
    (h : bodyAt? root d = some (p ++ [i])) : d = p := by
  unfold bodyAt? at h
  rw [Option.bind_eq_some_iff] at h
  rcases h with ⟨n, _, h⟩
  rw [Option.map_eq_some_iff] at h
  rcases h with ⟨j, _, h⟩
  apply List.append_inj_left' h rfl

theorem exists_of_inBody {root : Node} {d p : Path} (h : InBody root d p)
    : ∃ i q, p = d ++ i :: q := by
  rcases h with ⟨b, hb, q, rfl⟩
  unfold bodyAt? at hb
  rw [Option.mem_def, Option.bind_eq_some_iff] at hb
  rcases hb with ⟨n, _, hb⟩
  rw [Option.map_eq_some_iff] at hb
  rcases hb with ⟨i, _, rfl⟩
  refine ⟨i, q, ?_⟩
  simp

theorem isPrefix_of_inBody {root : Node} {d p : Path} (h : InBody root d p) : d <+: p := by
  rcases exists_of_inBody h with ⟨i, q, rfl⟩
  apply List.prefix_append

theorem before_of_inBody {root : Node} {d p : Path} (h : InBody root d p) : Path.Before d p := by
  rcases exists_of_inBody h with ⟨i, q, rfl⟩
  apply Path.before_append

theorem inBody_concat_iff (root : Node) (d p : Path) (i : Nat)
    : InBody root d (p ++ [i]) ↔ InBody root d p ∨ bodyAt? root d = some (p ++ [i]) := by
  unfold InBody
  simp only [List.prefix_concat_iff]
  constructor
  . rintro ⟨b, hb, rfl | hp⟩
    . right
      exact hb
    . left
      exact ⟨b, hb, hp⟩
  . rintro (⟨b, hb, hp⟩ | h)
    . exact ⟨b, hb, .inr hp⟩
    . exact ⟨_, h, .inl rfl⟩

theorem innermost_unique {root : Node} {d e p : Path} (hd : Innermost root d p)
    (he : Innermost root e p) : d = e := by
  have h1 : d <+: e := he.isPrefix d (mem_paths_of_definedAt? hd.named) hd.named hd.inBody
  have h2 : e <+: d := hd.isPrefix e (mem_paths_of_definedAt? he.named) he.named he.inBody
  apply List.IsPrefix.eq_of_length_le h1 h2.length_le

/--
Stepping into a child changes the innermost function only where the child is the body of a named one.
-/
theorem innermost_concat_iff (root : Node) (d p : Path) (i : Nat)
    (h : ∀ e, (definedAt? root e).isSome → bodyAt? root e ≠ some (p ++ [i]))
    : Innermost root d (p ++ [i]) ↔ Innermost root d p := by
  have hiff : ∀ e, (definedAt? root e).isSome → (InBody root e (p ++ [i]) ↔ InBody root e p) := by
    intro e he
    rw [inBody_concat_iff]
    have := h e he
    simp [this]
  constructor
  . intro hd
    refine ⟨hd.named, (hiff d hd.named).mp hd.inBody, ?_⟩
    intro e hmem he hbody
    apply hd.isPrefix e hmem he
    exact (hiff e he).mpr hbody
  . intro hd
    refine ⟨hd.named, (hiff d hd.named).mpr hd.inBody, ?_⟩
    intro e hmem he hbody
    apply hd.isPrefix e hmem he
    exact (hiff e he).mp hbody

theorem innermost_body {root : Node} {p : Path} {i : Nat} (hnamed : (definedAt? root p).isSome)
    (hbody : bodyAt? root p = some (p ++ [i])) : Innermost root p (p ++ [i]) := by
  refine ⟨hnamed, ⟨p ++ [i], hbody, List.prefix_refl _⟩, ?_⟩
  intro e _ _ he
  rw [inBody_concat_iff] at he
  cases he with
  | inl he => apply isPrefix_of_inBody he
  | inr he =>
    have := bodyAt?_eq_some_concat he
    subst this
    apply List.prefix_refl

theorem childScope_body {n : Node} {name : String} {i : Nat} (scope : Option String)
    (hname : definedName? n = some name) (hbody : bodyIndex? n = some i)
    : childScope scope n i = some name := by
  unfold childScope
  simp only [hname, hbody, ↓reduceIte]

theorem childScope_of_not_body {n : Node} {i : Nat} (scope : Option String)
    (h : ¬((definedName? n).isSome ∧ bodyIndex? n = some i)) : childScope scope n i = scope := by
  unfold childScope
  split
  . next name hname =>
    rw [if_neg]
    intro hbody
    apply h
    rw [hname]
    exact ⟨rfl, hbody⟩
  . rfl

theorem scopeAt_eq_some_iff (root : Node) (p : Path) (hp : (root.at? p).isSome) (name : String)
    : scopeAt none root p = some name
        ↔
      ∃ d ∈ root.paths, Innermost root d p ∧ definedAt? root d = some name
      := by
  induction p using List.reverseRecOn generalizing name with
  | nil =>
    simp only [scopeAt, reduceCtorEq, false_iff]
    rintro ⟨d, _, hd, _⟩
    rcases exists_of_inBody hd.inBody with ⟨i, q, h⟩
    simp at h
  | append_singleton p i ih =>
    have hm : (root.at? p).isSome := by
      rw [Node.at?_concat] at hp
      apply Option.isSome_of_isSome_bind hp
    specialize ih hm name
    rw [Option.isSome_iff_exists] at hm
    rcases hm with ⟨m, hm⟩
    have hdefined := definedAt?_of_at? hm
    have hbodyAt := bodyAt?_of_at? hm
    rw [scopeAt_concat none root m p i hm hp]
    -- Only on the way into the body of a named function does the scope change.
    by_cases hbody : (definedName? m).isSome ∧ bodyIndex? m = some i
    . have hinner : Innermost root p (p ++ [i]) := by
        apply innermost_body
        . rw [hdefined]
          exact hbody.1
        . rw [hbodyAt, hbody.2, Option.map_some]
      rcases Option.isSome_iff_exists.mp hbody.1 with ⟨name', hname⟩
      rw [childScope_body _ hname hbody.2]
      constructor
      . intro h
        refine ⟨p, mem_paths_of_definedAt? hinner.named, hinner, ?_⟩
        rw [hdefined, hname, h]
      . rintro ⟨d, _, hd, h⟩
        rw [innermost_unique hd hinner, hdefined, hname] at h
        exact h
    . have hother : ∀ e, (definedAt? root e).isSome → bodyAt? root e ≠ some (p ++ [i]) := by
        intro e he heq
        have := bodyAt?_eq_some_concat heq
        subst this
        apply hbody
        rw [hdefined] at he
        rw [hbodyAt] at heq
        simp only [Option.map_eq_some_iff, List.append_cancel_left_eq, List.cons.injEq, and_true,
          exists_eq_right] at heq
        exact ⟨he, heq⟩
      rw [childScope_of_not_body _ hbody, ih]
      simp only [innermost_concat_iff root _ p i hother]

theorem callee?_eq (n : Node)
    : callee? n
        =
      match n.child? "function" with
      | none => none
      | some f => if f.kind = "identifier" ∧ f.text ∉ builtins then some f.text else none
      := by
  unfold callee?
  cases n.child? "function" with
  | none => rfl
  | some f =>
    rw [Option.filter_some]
    simp only [Bool.and_eq_true, beq_iff_eq, Bool.not_eq_eq_eq_not, Bool.not_true,
      ← isBuiltin_iff, Bool.not_eq_true]
    split <;> rfl

theorem calleeAt?_eq_of_at? {root n : Node} {p : Path} (h : root.at? p = some n)
    : calleeAt? root p = if n.kind = "call" then callee? n else none := by
  unfold calleeAt?
  rw [h, callee?_eq]

theorem definedName?_of_call {n : Node} (h : n.kind = "call") : definedName? n = none := by
  unfold definedName?
  rw [h]
  rfl

theorem bind_defined?_stepAt? (root : Node) (p : Path)
    : (stepAt? none root p).bind Step.defined? = definedAt? root p := by
  unfold stepAt? definedAt?
  cases root.at? p with
  | none => rfl
  | some n =>
    simp only [Option.bind_some]
    unfold step?
    cases definedName? n with
    | some name => rfl
    | none =>
      dsimp
      split
      . unfold callStep?
        split <;> rfl
      . rfl

theorem bind_calleeFrom?_stepAt? (root : Node) (p : Path) (name : String)
    : (stepAt? none root p).bind (Step.calleeFrom? name)
        =
      if ∃ d ∈ root.paths, Innermost root d p ∧ definedAt? root d = some name then
        calleeAt? root p
      else
        none
      := by
  cases hn : root.at? p with
  | none =>
    unfold stepAt? calleeAt?
    simp [hn]
  | some n =>
    have hscope := scopeAt_eq_some_iff root p (by simp [hn]) name
    rw [calleeAt?_eq_of_at? hn]
    simp only [← hscope]
    unfold stepAt? step?
    rw [hn, Option.bind_some]
    by_cases hcall : n.kind = "call"
    . rw [definedName?_of_call hcall]
      simp only [hcall, ↓reduceIte]
      unfold callStep?
      cases scopeAt none root p with
      | none => simp
      | some caller =>
        cases callee? n with
        | none => simp
        | some callee => simp [Step.calleeFrom?]
    . simp only [hcall, ↓reduceIte, ite_self]
      cases definedName? n with
      | none => rfl
      | some name' => rfl

end CallFlow.Functions
