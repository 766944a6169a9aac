import Mathlib.Data.List.Basic
import CallFlow.Syntax.Node

/-!
This module contains the paths of a syntax tree: a node is found by the indices of the children that
lead to it from the root. `paths` lists the paths of all nodes, each of them once and in pre-order.
-/

namespace CallFlow.Syntax

theorem forall₂_filter_filterMap {α β : Type} {R : α → β → Prop} {P : α → Bool} {f : α → Option β}
    (l : List α) (hsome : ∀ a, (f a).isSome = P a) (h : ∀ a b, f a = some b → R a b)
    : List.Forall₂ R (l.filter P) (l.filterMap f) := by
  induction l with
  | nil => exact .nil
  | cons a l ih =>
    rw [List.filter_cons, List.filterMap_cons, ← hsome]
    cases hfa : f a with
    | none => exact ih
    | some b => exact .cons (h a b hfa) ih

/--
Where a node stands in a tree: the index of a child on each level, from the root down.
-/
abbrev Path := List Nat

namespace Path

/--
Pre-order: a node stands before the nodes below it, and these before its later siblings.
-/
def Before (p q : Path) : Prop := List.Lex (· < ·) p q

instance (p q : Path) : Decidable (Before p q) :=
  inferInstanceAs (Decidable (List.Lex (· < ·) p q))

theorem not_before_nil (p : Path) : ¬Before p [] := by
  intro h
  cases h

theorem before_cons_iff (i j : Nat) (p q : Path)
    : Before (i :: p) (j :: q) ↔ i < j ∨ i = j ∧ Before p q := by
  apply List.cons_lex_cons_iff

theorem before_irrefl (p : Path) : ¬Before p p := by
  apply List.lex_irrefl
  apply Nat.lt_irrefl

theorem before_trans {p q r : Path} (h1 : Before p q) (h2 : Before q r) : Before p r := by
  apply List.lex_trans
  . apply Nat.lt_trans
  . exact h1
  . exact h2

theorem before_asymm {p q : Path} (h : Before p q) : ¬Before q p := by
  intro h'
  apply before_irrefl p
  apply before_trans h h'

theorem before_append (p : Path) (i : Nat) (q : Path) : Before p (p ++ i :: q) := by
  induction p with
  | nil => apply List.Lex.nil
  | cons j p ih => apply List.Lex.cons ih

/--
A node that stands between another one and a node below the latter stands below it itself.
-/
theorem isPrefix_of_between {p q r : Path} (hr : p <+: r) (h1 : Before p q) (h2 : Before q r)
    : p <+: q := by
  induction p generalizing q r with
  | nil => apply List.nil_prefix
  | cons i p ih =>
    rcases hr with ⟨r, rfl⟩
    cases q with
    | nil =>
      exfalso
      apply not_before_nil _ h1
    | cons j q =>
      rw [List.cons_append] at h2
      rw [before_cons_iff] at h1 h2
      have hij : i = j := by omega
      subst hij
      simp only [Nat.lt_irrefl, false_or, true_and] at h1 h2
      rw [List.cons_prefix_cons]
      refine ⟨rfl, ?_⟩
      apply ih (List.prefix_append p r) h1 h2

theorem before_of_split {ps qs : List Path} {p : Path} (h : (ps ++ p :: qs).Pairwise Before)
    : (∀ q ∈ ps, Before q p) ∧ ∀ q ∈ qs, Before p q := by
  rw [List.pairwise_append, List.pairwise_cons] at h
  rcases h with ⟨_, ⟨hqs, _⟩, hps⟩
  constructor
  . intro q hq
    apply hps q hq p List.mem_cons_self
  . exact hqs

/--
Of the paths in pre-order that have a property, one is the last.
-/
theorem exists_last {ps : List Path} (hps : ps.Pairwise Before) (P : Path → Prop)
    (h : ∃ p ∈ ps, P p) : ∃ p ∈ ps, P p ∧ ∀ q ∈ ps, P q → q = p ∨ Before q p := by
  induction ps with
  | nil =>
    rcases h with ⟨p, hp, _⟩
    contradiction
  | cons a ps ih =>
    rw [List.pairwise_cons] at hps
    by_cases hlater : ∃ p ∈ ps, P p
    . rcases ih hps.2 hlater with ⟨p, hp, hP, hlast⟩
      refine ⟨p, List.mem_cons_of_mem a hp, hP, ?_⟩
      rw [List.forall_mem_cons]
      constructor
      . intro _
        right
        apply hps.1 p hp
      . exact hlast
    . rcases h with ⟨p, hp, hP⟩
      have hpa : p = a := by
        rw [List.mem_cons] at hp
        cases hp with
        | inl h => exact h
        | inr hmem => exact absurd ⟨p, hmem, hP⟩ hlater
      subst hpa
      refine ⟨p, hp, hP, ?_⟩
      rw [List.forall_mem_cons]
      constructor
      . intro _
        left
        rfl
      . intro q hq hPq
        exact absurd ⟨q, hq, hPq⟩ hlater

end Path

namespace Node

/--
The node at a path.
-/
def at? (n : Node) : Path → Option Node
  | [] => some n
  | i :: p => n.children[i]?.bind fun c => c.at? p

mutual

/--
The paths of a node and of all nodes below it, in pre-order.
-/
def paths : Node → List Path
  | ⟨_, _, _, _, _, _, _, children⟩ => [] :: pathsFrom 0 children

/--
The paths of some children of a node and of all nodes below them; the first child has index `i`.
-/
def pathsFrom (i : Nat) : List Node → List Path
  | [] => []
  | n :: ns => (paths n).map (i :: ·) ++ pathsFrom (i + 1) ns

end

@[elab_as_elim]
theorem induction_children {motive : Node → Prop}
    (h : ∀ (n : Node), (∀ c ∈ n.children, motive c) → motive n) (n : Node) : motive n := by
  apply h
  intro c hc
  apply induction_children h
termination_by sizeOf n
decreasing_by
  have := List.sizeOf_lt_of_mem hc
  cases n
  simp only [mk.sizeOf_spec] at *
  omega

@[simp]
theorem at?_nil (n : Node) : n.at? [] = some n := rfl

theorem at?_cons (n : Node) (i : Nat) (p : Path)
    : n.at? (i :: p) = n.children[i]?.bind fun c => c.at? p := rfl

theorem at?_append (n : Node) (p q : Path)
    : n.at? (p ++ q) = (n.at? p).bind fun m => m.at? q := by
  induction p generalizing n with
  | nil => rfl
  | cons i p ih =>
    rw [List.cons_append, at?_cons, at?_cons]
    cases n.children[i]? with
    | none => rfl
    | some c => apply ih

theorem at?_concat (n : Node) (p : Path) (i : Nat)
    : n.at? (p ++ [i]) = (n.at? p).bind fun m => m.children[i]? := by
  rw [at?_append]
  congr
  funext m
  rw [at?_cons]
  simp

theorem pathsFrom_eq_flatMap (i : Nat) (ns : List Node)
    : pathsFrom i ns = (ns.zipIdx i).flatMap fun c => c.1.paths.map (c.2 :: ·) := by
  induction ns generalizing i with
  | nil => rfl
  | cons n ns ih =>
    rw [pathsFrom, List.zipIdx_cons, List.flatMap_cons, ih]

theorem paths_eq_cons_flatMap (n : Node)
    : n.paths = [] :: n.children.zipIdx.flatMap fun c => c.1.paths.map (c.2 :: ·) := by
  cases n
  rw [paths, pathsFrom_eq_flatMap]

theorem filterMap_paths {α : Type} (n : Node) (f : Node → Option α)
    : (n.paths.filterMap fun p => (n.at? p).bind f)
        =
      (f n).toList ++ n.children.flatMap fun c => c.paths.filterMap fun p => (c.at? p).bind f
      := by
  have hchildren : (n.children.zipIdx.flatMap fun c =>
        (c.1.paths.map (c.2 :: ·)).filterMap fun p => (n.at? p).bind f)
      = n.children.zipIdx.flatMap fun c => c.1.paths.filterMap fun p => (c.1.at? p).bind f := by
    apply List.flatMap_congr
    intro c hc
    rw [List.mem_zipIdx_iff_getElem?] at hc
    rw [List.filterMap_map]
    apply List.filterMap_congr
    intro p _
    rw [Function.comp_apply, at?_cons, hc, Option.bind_some]
  have hzip : n.children = n.children.zipIdx.map Prod.fst := by simp
  rw [paths_eq_cons_flatMap, List.filterMap_cons, List.filterMap_flatMap, hchildren]
  conv => rhs; rw [hzip, List.flatMap_map]
  rw [at?_nil, Option.bind_some]
  cases f n with
  | none => rfl
  | some a => rfl

theorem nil_mem_paths (n : Node) : [] ∈ n.paths := by
  rw [paths_eq_cons_flatMap]
  apply List.mem_cons_self

theorem cons_mem_paths_iff (n : Node) (i : Nat) (p : Path)
    : i :: p ∈ n.paths ↔ ∃ c, n.children[i]? = some c ∧ p ∈ c.paths := by
  rw [paths_eq_cons_flatMap]
  simp only [List.mem_cons, reduceCtorEq, false_or, List.mem_flatMap, List.mem_map,
    List.cons.injEq]
  constructor
  . rintro ⟨⟨c, j⟩, hc, q, hq, rfl, rfl⟩
    rw [List.mk_mem_zipIdx_iff_getElem?] at hc
    exact ⟨c, hc, hq⟩
  . rintro ⟨c, hc, hp⟩
    refine ⟨(c, i), ?_, p, hp, rfl, rfl⟩
    rw [List.mk_mem_zipIdx_iff_getElem?]
    exact hc

theorem mem_paths_iff (n : Node) (p : Path) : p ∈ n.paths ↔ (n.at? p).isSome := by
  induction p generalizing n with
  | nil => simp [nil_mem_paths]
  | cons i p ih =>
    rw [cons_mem_paths_iff, at?_cons, Option.isSome_bind]
    cases n.children[i]? with
    | none => simp
    | some c => simp [ih]

theorem forall_at?_iff (root : Node) (Q : Node → Prop)
    : (∀ p n, root.at? p = some n → Q n) ↔ ∀ p ∈ root.paths, ∀ n ∈ root.at? p, Q n := by
  constructor
  . intro h p _ n hn
    apply h p n hn
  . intro h p n hn
    apply h p _ n hn
    rw [mem_paths_iff, hn, Option.isSome_some]

instance (root : Node) (Q : Node → Prop) [DecidablePred Q]
    : Decidable (∀ p n, root.at? p = some n → Q n) :=
  decidable_of_iff _ (forall_at?_iff root Q).symm

theorem pairwise_before_paths (n : Node) : n.paths.Pairwise Path.Before := by
  induction n using induction_children with
  | h n ih =>
    rw [paths_eq_cons_flatMap, List.pairwise_cons]
    constructor
    . intro q hq
      rw [List.mem_flatMap] at hq
      rcases hq with ⟨c, hc, hq⟩
      rw [List.mem_map] at hq
      rcases hq with ⟨p, hp, rfl⟩
      apply List.Lex.nil
    . rw [List.pairwise_flatMap]
      constructor
      . intro c hc
        rw [List.pairwise_map]
        apply List.Pairwise.imp
        . intro p q h
          apply List.Lex.cons h
        . apply ih
          rw [List.mem_zipIdx_iff_getElem?] at hc
          apply List.mem_of_getElem? hc
      . -- Two children are told apart by their indices, which rise.
        have hidx : (n.children.zipIdx.map Prod.snd).Pairwise (· < ·) := by
          rw [List.zipIdx_map_snd]
          exact List.pairwise_lt_range'
        rw [List.pairwise_map] at hidx
        apply List.Pairwise.imp _ hidx
        intro c d h x hx y hy
        rw [List.mem_map] at hx hy
        rcases hx with ⟨p, hp, rfl⟩
        rcases hy with ⟨q, hq, rfl⟩
        apply List.Lex.rel h

end Node

end CallFlow.Syntax
