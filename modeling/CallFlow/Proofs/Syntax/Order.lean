import CallFlow.Proofs.Syntax.Fault

/-!
This module contains that the faults of a tree come in the order of the text (`faults_in_order`), if nodes
stand within their parents and one behind the other. A node may be empty, as a missing one is.
-/

namespace CallFlow.Syntax

open CallFlow.Text

/--
One place is at or before another one, by line and column.
-/
def UpTo (a b : Position) : Prop := a.row < b.row ∨ a.row = b.row ∧ a.column ≤ b.column

structure Placed (n : Node) : Prop where
  start_le_stop : n.start.byte ≤ n.stop.byte
  within : ∀ c ∈ n.children, n.start.byte ≤ c.start.byte ∧ c.stop.byte ≤ n.stop.byte
  apart : n.children.Pairwise fun c d => c.stop.byte ≤ d.start.byte

def AllPlaced (root : Node) : Prop := ∀ p n, root.at? p = some n → Placed n

/--
What a parser promises of the places of nodes: bytes in order, and lines and columns in the order of bytes.
-/
structure WellPlaced (root : Node) : Prop where
  placed : AllPlaced root
  points : ∀ p m, root.at? p = some m → ∀ q n, root.at? q = some n →
    m.start.byte ≤ n.start.byte → UpTo m.start n.start

/--
One fault is reported at or before another one. Columns are compared within a line; so many lines that their
numbers are at the limit count as one.
-/
structure Fault.UpTo (f g : Fault) : Prop where
  start : f.start ≤ g.start
  line : f.line ≤ g.line
  column : f.line = g.line → f.line < maxNumber → f.column ≤ g.column

instance (a b : Position) : Decidable (UpTo a b) := inferInstanceAs (Decidable (_ ∨ _))

instance (n : Node) : Decidable (Placed n) :=
  decidable_of_iff
    (n.start.byte ≤ n.stop.byte ∧
      (∀ c ∈ n.children, n.start.byte ≤ c.start.byte ∧ c.stop.byte ≤ n.stop.byte) ∧
      n.children.Pairwise fun c d => c.stop.byte ≤ d.start.byte)
    ⟨fun h => ⟨h.1, h.2.1, h.2.2⟩, fun h => ⟨h.start_le_stop, h.within, h.apart⟩⟩

instance (root : Node) : Decidable (AllPlaced root) :=
  inferInstanceAs (Decidable (∀ p n, root.at? p = some n → Placed n))

instance (root : Node) : Decidable (WellPlaced root) :=
  decidable_of_iff
    (AllPlaced root ∧
      ∀ p m, root.at? p = some m → ∀ q n, root.at? q = some n →
        m.start.byte ≤ n.start.byte → UpTo m.start n.start)
    ⟨fun h => ⟨h.1, h.2⟩, fun h => ⟨h.placed, h.points⟩⟩

namespace AllPlaced

variable {root m n : Node} {p q : Path}

theorem child {c : Node} {i : Nat} (h : AllPlaced root) (hc : root.children[i]? = some c)
    : AllPlaced c := by
  intro p n hn
  apply h (i :: p)
  rw [Node.at?_cons, hc, Option.bind_some, hn]

theorem within (h : AllPlaced root) (hn : root.at? p = some n)
    : root.start.byte ≤ n.start.byte ∧ n.stop.byte ≤ root.stop.byte := by
  induction p generalizing root with
  | nil =>
    rw [Node.at?_nil, Option.some.injEq] at hn
    rw [hn]
    omega
  | cons i p ih =>
    rw [Node.at?_cons, Option.bind_eq_some_iff] at hn
    rcases hn with ⟨c, hc, hn⟩
    have hroot := h [] root rfl
    have hchild := hroot.within c (List.mem_of_getElem? hc)
    have := ih (h.child hc) hn
    omega

theorem start_le_of_before (h : AllPlaced root) (hm : root.at? p = some m) (hn : root.at? q = some n)
    (hpq : Path.Before p q) : m.start.byte ≤ n.start.byte := by
  -- The two paths are the same up to a node, which is either `m` itself or has `m` and `n` in two children.
  induction p generalizing root q with
  | nil =>
    rw [Node.at?_nil, Option.some.injEq] at hm
    rw [← hm]
    exact (h.within hn).1
  | cons i p ih =>
    cases q with
    | nil => exact absurd hpq (Path.not_before_nil _)
    | cons j q =>
      rw [Node.at?_cons, Option.bind_eq_some_iff] at hm hn
      rcases hm with ⟨c, hc, hm⟩
      rcases hn with ⟨d, hd, hn⟩
      rw [Path.before_cons_iff] at hpq
      cases hpq with
      | inl hij =>
        have hplaced := h.child hc p m hm
        have hm := ((h.child hc).within hm).2
        have hn := ((h.child hd).within hn).1
        have hcd : c.stop.byte ≤ d.start.byte := by
          have hroot := h [] root rfl
          rw [List.getElem?_eq_some_iff] at hc hd
          rcases hc with ⟨hi, hc⟩
          rcases hd with ⟨hj, hd⟩
          rw [← hc, ← hd]
          apply List.pairwise_iff_getElem.mp hroot.apart i j hi hj hij
        have := hplaced.start_le_stop
        omega
      | inr hij =>
        rcases hij with ⟨rfl, hpq⟩
        rw [hc, Option.some.injEq] at hd
        rw [← hd] at hn
        apply ih (h.child hc) hm hn hpq

end AllPlaced

theorem oneBased_le_oneBased {a b : Nat} (h : a ≤ b) : oneBased a ≤ oneBased b := by
  unfold oneBased
  omega

theorem eq_of_oneBased_eq {a b : Nat} (h : oneBased a = oneBased b) (hlt : oneBased a < maxNumber)
    : a = b := by
  unfold oneBased at h hlt
  omega

theorem upTo_of_reports {m n : Node} {f g : Fault} (hf : Reports m f) (hg : Reports n g)
    (hbyte : m.start.byte ≤ n.start.byte) (hpoint : UpTo m.start n.start) : f.UpTo g := by
  refine ⟨?_, ?_, ?_⟩
  . rw [hf.start, hg.start]
    exact hbyte
  . rw [hf.line, hg.line]
    apply oneBased_le_oneBased
    cases hpoint with
    | inl hlt => omega
    | inr heq => omega
  . rw [hf.line, hg.line, hf.column, hg.column]
    intro hline hlt
    have hrow := eq_of_oneBased_eq hline hlt
    apply oneBased_le_oneBased
    cases hpoint with
    | inl hlt => omega
    | inr heq => omega

theorem pairwise_upTo_faults {root : Node} (h : WellPlaced root) : root.faults.Pairwise Fault.UpTo := by
  rw [faults_eq_filterMap_paths, List.pairwise_filterMap]
  apply List.Pairwise.imp _ root.pairwise_before_paths
  intro p q hpq f hf g hg
  rw [Option.bind_eq_some_iff] at hf hg
  rcases hf with ⟨m, hm, hf⟩
  rcases hg with ⟨n, hn, hg⟩
  have hbyte := h.placed.start_le_of_before hm hn hpq
  apply upTo_of_reports (reports_of_fault? hf) (reports_of_fault? hg) hbyte
  apply h.points p m hm q n hn hbyte

theorem Fault.upTo_refl (f : Fault) : f.UpTo f :=
  ⟨Nat.le_refl _, Nat.le_refl _, fun _ _ => Nat.le_refl _⟩

/--
Of two faults of a tree the one that is listed first starts no later, and its line is no later either. So a
tree with faults is refused at a fault that no other one starts before.
-/
theorem faults_in_order (t : Tree) (h : WellPlaced t.root)
    : t.faults.Pairwise Fault.UpTo ∧
      (t.faults ≠ [] → ∃ e f fs, t.check = .error e ∧ t.faults = f :: fs ∧
        e.line = f.line ∧ e.column = f.column ∧ e.cause = f.cause ∧ ∀ g ∈ t.faults, f.UpTo g) := by
  have hpairwise : t.faults.Pairwise Fault.UpTo := pairwise_upTo_faults h
  refine ⟨hpairwise, ?_⟩
  intro hne
  cases hfaults : t.faults with
  | nil => contradiction
  | cons f fs =>
    refine ⟨_, f, fs, check_of_faults_eq_cons hfaults, rfl, rfl, rfl, rfl, ?_⟩
    rw [List.forall_mem_cons]
    rw [hfaults, List.pairwise_cons] at hpairwise
    exact ⟨f.upTo_refl, hpairwise.1⟩

/--
A statement of Python 2, and in the next line an error with a smaller one in it and two missing tokens behind
that, both of them empty and at the same place.
-/
def misprinted : Tree where
  root := {
    kind := "module"
    stop := { byte := 14, row := 2 }
    children := [
      { kind := "print_statement", stop := { byte := 7, column := 7 } },
      { kind := "ERROR"
        status := .error
        start := { byte := 8, row := 1 }
        stop := { byte := 13, row := 1, column := 5 }
        children := [
          { kind := "ERROR"
            status := .error
            start := { byte := 10, row := 1, column := 2 }
            stop := { byte := 11, row := 1, column := 3 } },
          { kind := ")"
            named := false
            status := .missing
            start := { byte := 13, row := 1, column := 5 }
            stop := { byte := 13, row := 1, column := 5 } },
          { kind := ":"
            named := false
            status := .missing
            start := { byte := 13, row := 1, column := 5 }
            stop := { byte := 13, row := 1, column := 5 } }
        ] }
    ]
  }
  hasError := true

theorem faults_in_order_misprinted
    : WellPlaced misprinted.root ∧
        misprinted.faults.map (fun f => (f.start, f.line, f.column))
          = [(0, 1, 1), (8, 2, 1), (10, 2, 3), (13, 2, 6), (13, 2, 6)] ∧
        misprinted.faults.Pairwise Fault.UpTo ∧
        ∃ e f fs, misprinted.check = .error e ∧ misprinted.faults = f :: fs ∧
          e.line = f.line ∧ e.column = f.column ∧ e.cause = f.cause ∧
          ∀ g ∈ misprinted.faults, f.UpTo g := by
  have h : WellPlaced misprinted.root := by decide +kernel
  have hne : misprinted.faults ≠ [] := by decide +kernel
  rcases faults_in_order misprinted h with ⟨hpairwise, hrefused⟩
  exact ⟨h, by decide +kernel, hpairwise, hrefused hne⟩

end CallFlow.Syntax
