import Mathlib.Data.List.Forall2
import CallFlow.Functions.Extract
import CallFlow.Proofs.Syntax.Path

/-!
This module contains which nodes the faults of a tree stand for, and that all ways to tell whether a text is
refused agree on it (`check_agrees_with_faults`). A tree shows an error at its root only if one of its nodes is
missing or erroneous; this is taken from the parser.
-/

namespace CallFlow.Syntax

open CallFlow.Functions

/--
A node that the text lacks or that does not fit the grammar, or a statement of Python 2.
-/
def Node.AtFault (n : Node) : Prop :=
  n.status = .missing ∨ n.status = .error ∨ n.kind = "print_statement" ∨ n.kind = "exec_statement"

instance (n : Node) : Decidable n.AtFault :=
  inferInstanceAs (Decidable (_ ∨ _ ∨ _ ∨ _))

/--
What is said of a node at fault. Of several reasons the first one counts.
-/
def Node.complaint (n : Node) : String :=
  if n.status = .missing then "missing " ++ n.kind
  else if n.status = .error then "syntax error"
  else if n.kind = "print_statement" then "python 2 print statement"
  else "python 2 exec statement"

structure Reports (n : Node) (f : Fault) : Prop where
  start : f.start = n.start.byte
  stop : f.stop = n.stop.byte
  line : f.line = oneBased n.start.row
  column : f.column = oneBased n.start.column
  context : f.context = abbreviate n.text
  message : f.cause.message = n.complaint

/--
The paths of the nodes at fault, in pre-order.
-/
def faultyPaths (root : Node) : List Path :=
  root.paths.filter fun p => (root.at? p).any (decide ·.AtFault)

def ReportsAt (root : Node) (p : Path) (f : Fault) : Prop := ∃ n, root.at? p = some n ∧ Reports n f

/--
A node at fault that no other one comes before.
-/
structure FirstAtFault (root : Node) (p : Path) (n : Node) : Prop where
  at? : root.at? p = some n
  atFault : n.AtFault
  first : ∀ q m, root.at? q = some m → m.AtFault → q = p ∨ Path.Before p q

/--
The node that a refusal is reported at, and how many nodes are at fault.
-/
structure RefusedFor (root : Node) (p : Path) (n : Node) (e : ParseError) : Prop where
  first : FirstAtFault root p n
  line : e.line = oneBased n.start.row
  column : e.column = oneBased n.start.column
  message : e.cause.message = n.complaint
  count : e.count = (faultyPaths root).length

theorem isSome_cause?_iff (n : Node) : n.cause?.isSome ↔ n.AtFault := by
  unfold Node.cause? Node.AtFault
  cases n.status with
  | missing => simp
  | error => simp
  | present =>
    by_cases hprint : n.kind = "print_statement"
    . simp [hprint]
    . by_cases hexec : n.kind = "exec_statement"
      . simp [hexec]
      . simp [hprint, hexec]

theorem message_of_cause? {n : Node} {cause : Cause} (h : n.cause? = some cause)
    : cause.message = n.complaint := by
  unfold Node.cause? at h
  unfold Node.complaint
  split at h
  . next hstatus =>
    injection h with h
    rw [← h, if_pos hstatus]
    rfl
  . next hstatus =>
    injection h with h
    rw [← h, if_neg, if_pos hstatus]
    . rfl
    . simp [hstatus]
  . next hstatus =>
    simp only [hstatus, reduceCtorEq, ↓reduceIte]
    split at h
    . next hprint =>
      injection h with h
      rw [← h, if_pos (eq_of_beq hprint)]
      rfl
    . next hprint =>
      split at h
      . injection h with h
        rw [← h, if_neg]
        . rfl
        . intro heq
          exact hprint (beq_iff_eq.mpr heq)
      . contradiction

theorem isSome_fault?_iff (n : Node) : n.fault?.isSome ↔ n.AtFault := by
  unfold Node.fault?
  rw [Option.isSome_map, isSome_cause?_iff]

theorem reports_of_fault? {n : Node} {f : Fault} (h : n.fault? = some f) : Reports n f := by
  unfold Node.fault? at h
  rw [Option.map_eq_some_iff] at h
  rcases h with ⟨cause, hcause, rfl⟩
  exact ⟨rfl, rfl, rfl, rfl, rfl, message_of_cause? hcause⟩

theorem faultsAll_eq_flatMap (ns : List Node) : Node.faultsAll ns = ns.flatMap Node.faults := by
  induction ns with
  | nil => rfl
  | cons n ns ih => rw [Node.faultsAll, ih, List.flatMap_cons]

theorem faults_eq_append (n : Node) : n.faults = n.fault?.toList ++ n.children.flatMap Node.faults := by
  cases n
  rw [Node.faults, faultsAll_eq_flatMap]

theorem faults_eq_filterMap_paths (n : Node)
    : n.faults = n.paths.filterMap fun p => (n.at? p).bind Node.fault? := by
  induction n using Node.induction_children with
  | h n ih =>
    rw [faults_eq_append, Node.filterMap_paths]
    congr 1
    apply List.flatMap_congr
    intro c hc
    apply ih c hc

theorem mem_faultyPaths_iff (root : Node) (p : Path)
    : p ∈ faultyPaths root ↔ ∃ n, root.at? p = some n ∧ n.AtFault := by
  unfold faultyPaths
  rw [List.mem_filter, Node.mem_paths_iff, Option.any_eq_true_iff_get]
  constructor
  . rintro ⟨_, hsome, hfault⟩
    exact ⟨_, Option.some_get hsome |>.symm, of_decide_eq_true hfault⟩
  . rintro ⟨n, hn, hfault⟩
    simp [hn, hfault]

theorem pairwise_before_faultyPaths (root : Node) : (faultyPaths root).Pairwise Path.Before := by
  apply List.Pairwise.sublist List.filter_sublist
  exact root.pairwise_before_paths

theorem reportsAt_faults (root : Node)
    : List.Forall₂ (ReportsAt root) (faultyPaths root) root.faults := by
  rw [faults_eq_filterMap_paths]
  unfold faultyPaths
  apply forall₂_filter_filterMap
  . intro p
    cases root.at? p with
    | none => rfl
    | some n =>
      rw [Option.bind_some, Option.any_some, Bool.eq_iff_iff, decide_eq_true_eq]
      apply isSome_fault?_iff
  . intro p f hf
    rw [Option.bind_eq_some_iff] at hf
    rcases hf with ⟨n, hn, hf⟩
    exact ⟨n, hn, reports_of_fault? hf⟩

theorem firstAtFault_of_faultyPaths {root n : Node} {p : Path} {ps : List Path}
    (h : faultyPaths root = p :: ps) (hn : root.at? p = some n) : FirstAtFault root p n := by
  have hmem : p ∈ faultyPaths root := by
    rw [h]
    apply List.mem_cons_self
  rw [mem_faultyPaths_iff] at hmem
  rcases hmem with ⟨n', hn', hfault⟩
  rw [hn, Option.some.injEq] at hn'
  subst hn'
  refine ⟨hn, hfault, ?_⟩
  intro q m hm hmfault
  have hq : q ∈ faultyPaths root := by
    rw [mem_faultyPaths_iff]
    exact ⟨m, hm, hmfault⟩
  have hpairwise := pairwise_before_faultyPaths root
  rw [h] at hq hpairwise
  rw [List.mem_cons] at hq
  cases hq with
  | inl heq => exact .inl heq
  | inr hq => exact .inr (List.rel_of_pairwise_cons hpairwise hq)

theorem faults_eq_nil_iff (root : Node)
    : root.faults = [] ↔ ¬∃ p n, root.at? p = some n ∧ n.AtFault := by
  have hlength := (reportsAt_faults root).length_eq
  rw [← List.length_eq_zero_iff, ← hlength, List.length_eq_zero_iff, List.eq_nil_iff_forall_not_mem,
    not_exists]
  apply forall_congr'
  intro p
  rw [mem_faultyPaths_iff]

section Tree

variable {t : Tree}

theorem check_of_faults_eq_cons {f : Fault} {fs : List Fault} (h : t.faults = f :: fs)
    : t.check = .error ⟨f.line, f.column, f.cause, fs.length + 1⟩ := by
  unfold Tree.check
  rw [h]

theorem check_of_faults_eq_nil (h : t.faults = []) (herror : t.hasError = false)
    : t.check = .ok t := by
  unfold Tree.check
  rw [h]
  dsimp only
  rw [herror]
  rfl

theorem hasFaults_iff_faults_ne_nil
    (h : t.hasError = true → ∃ p n, t.root.at? p = some n ∧ n.AtFault)
    : t.hasFaults = true ↔ t.faults ≠ [] := by
  unfold Tree.hasFaults
  rw [Bool.or_eq_true, Bool.not_eq_true', List.isEmpty_eq_false_iff]
  constructor
  . rintro (herror | hne)
    . intro hnil
      exact (faults_eq_nil_iff t.root).mp hnil (h herror)
    . exact hne
  . intro hne
    exact .inr hne

theorem exists_refusedFor (h : t.faults ≠ [])
    : ∃ e p n, t.check = .error e ∧ RefusedFor t.root p n e := by
  have hreports : List.Forall₂ (ReportsAt t.root) (faultyPaths t.root) t.faults :=
    reportsAt_faults t.root
  cases hfaults : t.faults with
  | nil => contradiction
  | cons f fs =>
    rw [hfaults] at hreports
    have hlength := hreports.length_eq
    generalize hpaths : faultyPaths t.root = ps at hreports
    cases hreports with
    | @cons p _ ps _ hreport _ =>
      rcases hreport with ⟨n, hn, hreport⟩
      refine ⟨_, p, n, check_of_faults_eq_cons hfaults, ?_⟩
      refine ⟨firstAtFault_of_faultyPaths hpaths hn, hreport.line, hreport.column, hreport.message, ?_⟩
      exact hlength.symm

end Tree

/--
The faults of a tree report its nodes at fault one by one, in pre-order. A tree with such a node is refused
for the first of them, also by `extractStrict`, and any other tree is accepted. There is never an error
without a node to report.
-/
theorem check_agrees_with_faults (t : Tree)
    (h : t.hasError = true ↔
      ∃ p n, t.root.at? p = some n ∧ (n.status = .missing ∨ n.status = .error))
    : (faultyPaths t.root).Pairwise Path.Before ∧
      (∀ p, p ∈ faultyPaths t.root ↔ ∃ n, t.root.at? p = some n ∧ n.AtFault) ∧
      List.Forall₂ (ReportsAt t.root) (faultyPaths t.root) t.faults ∧
      (t.hasFaults = true ↔ ∃ p n, t.root.at? p = some n ∧ n.AtFault) ∧
      (t.hasError = true → t.faults ≠ []) ∧
      (t.hasFaults = true → ∃ e p n,
        t.check = .error e ∧ extractStrict t = .error e ∧ RefusedFor t.root p n e) ∧
      (t.hasFaults = false → t.check = .ok t ∧ extractStrict t = .ok (extract t.root)) := by
  have herror : t.hasError = true → ∃ p n, t.root.at? p = some n ∧ n.AtFault := by
    rw [h]
    rintro ⟨p, n, hn, hstatus⟩
    refine ⟨p, n, hn, ?_⟩
    cases hstatus with
    | inl hmissing => exact .inl hmissing
    | inr herror => exact .inr (.inl herror)
  have hiff := hasFaults_iff_faults_ne_nil herror
  refine ⟨pairwise_before_faultyPaths t.root, mem_faultyPaths_iff t.root, reportsAt_faults t.root, ?_, ?_,
    ?_, ?_⟩
  . rw [hiff, ← not_iff_not, not_not]
    apply faults_eq_nil_iff
  . intro hroot
    rw [← hiff]
    unfold Tree.hasFaults
    rw [hroot, Bool.true_or]
  . intro hfaults
    rcases exists_refusedFor (hiff.mp hfaults) with ⟨e, p, n, hcheck, hrefused⟩
    refine ⟨e, p, n, hcheck, ?_, hrefused⟩
    unfold extractStrict
    rw [hcheck]
    rfl
  . intro hfaults
    unfold Tree.hasFaults at hfaults
    rw [Bool.or_eq_false_iff, Bool.not_eq_false', List.isEmpty_iff] at hfaults
    have hcheck := check_of_faults_eq_nil hfaults.2 hfaults.1
    refine ⟨hcheck, ?_⟩
    unfold extractStrict
    rw [hcheck]
    rfl

/--
A statement of Python 2, and an error with another error and a missing bracket in it.
-/
def faulty : Tree where
  root := {
    kind := "module"
    children := [
      { kind := "print_statement", text := "print x", stop := { byte := 7, column := 7 } },
      { kind := "ERROR"
        status := .error
        start := { byte := 8, row := 1 }
        children := [
          { kind := "ERROR", status := .error, start := { byte := 10, row := 1, column := 2 } },
          { kind := ")", named := false, status := .missing, start := { byte := 12, row := 1, column := 4 } }
        ] }
    ]
  }
  hasError := true

theorem check_agrees_with_faults_faulty
    : (faulty.hasError = true ↔
          ∃ p n, faulty.root.at? p = some n ∧ (n.status = .missing ∨ n.status = .error)) ∧
        faultyPaths faulty.root = [[0], [1], [1, 0], [1, 1]] ∧
        List.Forall₂ (ReportsAt faulty.root) (faultyPaths faulty.root) faulty.faults ∧
        ∃ e p n, extractStrict faulty = .error e ∧ RefusedFor faulty.root p n e ∧
          e = ⟨1, 1, .printStatement, 4⟩ := by
  have h : faulty.hasError = true ↔
      ∃ p n, faulty.root.at? p = some n ∧ (n.status = .missing ∨ n.status = .error) := by
    constructor
    . intro _
      exact ⟨[1], _, rfl, .inr rfl⟩
    . intro _
      rfl
  rcases check_agrees_with_faults faulty h with ⟨_, _, hreports, _, _, hrefused, _⟩
  have hfaults : faulty.hasFaults = true := by decide +kernel
  rcases hrefused hfaults with ⟨e, p, n, hcheck, hextract, hfor⟩
  have he : faulty.check = .error ⟨1, 1, .printStatement, 4⟩ := by rfl
  rw [hcheck] at he
  injection he with he
  exact ⟨h, by decide +kernel, hreports, e, p, n, hextract, hfor, he⟩

end CallFlow.Syntax
