import CallFlow.Proofs.Functions.Extract
import CallFlow.Proofs.Text.Chars

/-!
This module contains where the texts of a table come from: what holds of all identifiers of a tree holds of
all names in its records (`holds_of_mem_extract`), and the summaries keep within one line.
-/

namespace CallFlow.Functions

open CallFlow.Syntax CallFlow.Text

/--
What the grammar promises of a node: identifiers are plain names, and the names of functions and
attributes are identifiers.
-/
structure WellNamed (n : Node) : Prop where
  plain_text : n.kind = "identifier" → PlainName n.text
  kind_name : n.kind = "function_definition" → ∀ m ∈ n.child? "name", m.kind = "identifier"
  kind_attribute : n.kind = "attribute" → ∀ m ∈ n.child? "attribute", m.kind = "identifier"

def AllWellNamed (root : Node) : Prop := ∀ p n, root.at? p = some n → WellNamed n

instance (n : Node) : Decidable (WellNamed n) :=
  decidable_of_iff
    ((n.kind = "identifier" → PlainName n.text) ∧
      (n.kind = "function_definition" → ∀ m ∈ n.child? "name", m.kind = "identifier") ∧
      (n.kind = "attribute" → ∀ m ∈ n.child? "attribute", m.kind = "identifier"))
    ⟨fun h => ⟨h.1, h.2.1, h.2.2⟩, fun h => ⟨h.plain_text, h.kind_name, h.kind_attribute⟩⟩

instance (root : Node) : Decidable (AllWellNamed root) :=
  decidable_of_iff _ (Node.forall_at?_iff root WellNamed).symm

/--
A property of the names at a node: of the text of an identifier, and of the names of a function and of an
attribute.
-/
structure Named (P : String → Prop) (n : Node) : Prop where
  text_identifier : n.kind = "identifier" → P n.text
  text_name : n.kind = "function_definition" → ∀ m ∈ n.child? "name", P m.text
  text_attribute : n.kind = "attribute" → ∀ m ∈ n.child? "attribute", P m.text

def AllNamed (P : String → Prop) (root : Node) : Prop := ∀ p n, root.at? p = some n → Named P n

instance (P : String → Prop) [DecidablePred P] (n : Node) : Decidable (Named P n) :=
  decidable_of_iff
    ((n.kind = "identifier" → P n.text) ∧
      (n.kind = "function_definition" → ∀ m ∈ n.child? "name", P m.text) ∧
      (n.kind = "attribute" → ∀ m ∈ n.child? "attribute", P m.text))
    ⟨fun h => ⟨h.1, h.2.1, h.2.2⟩, fun h => ⟨h.text_identifier, h.text_name, h.text_attribute⟩⟩

instance (P : String → Prop) [DecidablePred P] (root : Node) : Decidable (AllNamed P root) :=
  decidable_of_iff _ (Node.forall_at?_iff root (Named P)).symm

theorem mem_children_of_child? {n m : Node} {field : String} (h : m ∈ n.child? field)
    : m ∈ n.children := by
  apply List.mem_of_find?_eq_some h

theorem mem_children_of_namedChildren {n m : Node} (h : m ∈ n.namedChildren) : m ∈ n.children := by
  apply List.mem_of_mem_filter h

theorem exists_at?_of_mem_children {root n c : Node} {p : Path} (hn : root.at? p = some n)
    (hc : c ∈ n.children) : ∃ i, root.at? (p ++ [i]) = some c := by
  rw [List.mem_iff_getElem?] at hc
  rcases hc with ⟨i, hi⟩
  refine ⟨i, ?_⟩
  rw [Node.at?_concat, hn, Option.bind_some, hi]

theorem AllWellNamed.allNamed {root : Node} (h : AllWellNamed root) : AllNamed PlainName root := by
  intro p n hn
  have hchild : ∀ m ∈ n.children, m.kind = "identifier" → PlainName m.text := by
    intro m hm hkind
    rcases exists_at?_of_mem_children hn hm with ⟨i, hi⟩
    apply (h _ m hi).plain_text hkind
  refine ⟨(h p n hn).plain_text, ?_, ?_⟩
  . intro hkind m hm
    apply hchild m (mem_children_of_child? hm)
    apply (h p n hn).kind_name hkind m hm
  . intro hkind m hm
    apply hchild m (mem_children_of_child? hm)
    apply (h p n hn).kind_attribute hkind m hm

variable {P : String → Prop}

theorem AllNamed.imp {Q : String → Prop} {root : Node} (hPQ : ∀ s, P s → Q s) (h : AllNamed P root)
    : AllNamed Q root := by
  intro p n hn
  have hn := h p n hn
  refine ⟨?_, ?_, ?_⟩
  . intro hkind
    apply hPQ _ (hn.text_identifier hkind)
  . intro hkind m hm
    apply hPQ _ (hn.text_name hkind m hm)
  . intro hkind m hm
    apply hPQ _ (hn.text_attribute hkind m hm)

theorem AllNamed.root {n : Node} (h : AllNamed P n) : Named P n := by
  apply h []
  rfl

theorem AllNamed.at {root n : Node} {p : Path} (h : AllNamed P root) (hn : root.at? p = some n)
    : AllNamed P n := by
  intro q m hm
  apply h (p ++ q)
  rw [Node.at?_append, hn, Option.bind_some, hm]

theorem AllNamed.child {n c : Node} (h : AllNamed P n) (hc : c ∈ n.children) : AllNamed P c := by
  rcases exists_at?_of_mem_children n.at?_nil hc with ⟨i, hi⟩
  apply h.at hi

namespace Annotation

/--
A property of all names in an annotation.
-/
def Holds (P : String → Prop) : Annotation → Prop
  | absent => True
  | name identifier => P identifier
  | dotted object member => P object ∧ P member
  | unrecognised => True

instance (P : String → Prop) [DecidablePred P] : DecidablePred (Holds P)
  | absent => inferInstanceAs (Decidable True)
  | name identifier => inferInstanceAs (Decidable (P identifier))
  | dotted object member => inferInstanceAs (Decidable (P object ∧ P member))
  | unrecognised => inferInstanceAs (Decidable True)

theorem Holds.imp {Q : String → Prop} {a : Annotation} (hPQ : ∀ s, P s → Q s) (h : a.Holds P)
    : a.Holds Q := by
  cases a with
  | absent => trivial
  | name identifier => exact hPQ _ h
  | dotted object member => exact ⟨hPQ _ h.1, hPQ _ h.2⟩
  | unrecognised => trivial

theorem holds_ofAttribute (n : Node) (hn : AllNamed P n) (h : n.kind = "attribute")
    : (ofAttribute n).Holds P := by
  unfold ofAttribute
  split
  . next object member hobject hmember =>
    split
    . next hkind =>
      constructor
      . apply (hn.child (mem_children_of_child? hobject)).root.text_identifier hkind
      . apply hn.root.text_attribute h member hmember
    . trivial
  . trivial

theorem holds_ofMember (base : Annotation) (member : Node) (hbase : base.Holds P)
    (hmember : Named P member) : (ofMember base member).Holds P := by
  unfold ofMember
  split
  . split
    . next hkind => exact ⟨hbase, hmember.text_identifier hkind⟩
    . trivial
  . trivial

theorem readAll_eq_map (wrapped : Bool) (ns : List Node)
    : readAll wrapped ns = (ns.filter (·.named)).map fun n => (n, read wrapped n) := by
  induction ns with
  | nil => rfl
  | cons n ns ih =>
    unfold readAll
    split
    . next h => rw [ih, List.filter_cons_of_pos h, List.map_cons]
    . next h => rw [ih, List.filter_cons_of_neg h]

theorem mem_readAll {wrapped : Bool} {ns : List Node} {n : Node} {a : Annotation}
    (h : (n, a) ∈ readAll wrapped ns) : n ∈ ns ∧ a = read wrapped n := by
  rw [readAll_eq_map, List.mem_map] at h
  rcases h with ⟨m, hm, heq⟩
  injection heq with hn ha
  subst hn
  exact ⟨List.mem_of_mem_filter hm, ha.symm⟩

theorem holds_read (n : Node) (hn : AllNamed P n) (wrapped : Bool) : (read wrapped n).Holds P := by
  -- `wrapped` changes from a node to its children.
  induction n using Node.induction_children generalizing wrapped with
  | h n ih =>
    have hchild : ∀ wrapped c a, (c, a) ∈ readAll wrapped n.children → a.Holds P := by
      intro wrapped c a hmem
      rcases mem_readAll hmem with ⟨hc, rfl⟩
      apply ih c hc (hn.child hc)
    rcases n with ⟨kind, named, field, status, start, stop, text, children⟩
    unfold read
    split
    . split
      . next c a heq =>
        apply hchild false c a
        dsimp only
        rw [heq]
        apply List.mem_cons_self
      . trivial
    . split
      . next hkind => exact hn.root.text_identifier hkind
      . split
        . next hkind => apply holds_ofAttribute _ hn hkind
        . split
          . split
            . next c base member a heq =>
              have hbase : (c, base) ∈ readAll true children := by
                rw [heq]
                apply List.mem_cons_self
              have hmember : (member, a) ∈ readAll true children := by
                rw [heq]
                apply List.mem_cons_of_mem
                apply List.mem_cons_self
              apply holds_ofMember
              . apply hchild true c base hbase
              . apply (hn.child (mem_readAll hmember).1).root
            . trivial
          . trivial

theorem holds_ofField (field : String) (n : Node) (hn : AllNamed P n)
    : (ofField field n).Holds P := by
  unfold ofField ofNode
  split
  . trivial
  . next m hm => apply holds_read m (hn.child (mem_children_of_child? hm))

end Annotation

structure Parameter.Holds (P : String → Prop) (p : Parameter) : Prop where
  name : P p.name
  annotation : p.annotation.Holds P

instance (P : String → Prop) [DecidablePred P] (p : Parameter) : Decidable (p.Holds P) :=
  decidable_of_iff (P p.name ∧ p.annotation.Holds P)
    ⟨fun h => ⟨h.1, h.2⟩, fun h => ⟨h.name, h.annotation⟩⟩

theorem Parameter.Holds.imp {Q : String → Prop} {p : Parameter} (hPQ : ∀ s, P s → Q s)
    (h : p.Holds P) : p.Holds Q :=
  ⟨hPQ _ h.name, h.annotation.imp hPQ⟩

theorem Parameter.holds_ofNode? {n : Node} {p : Parameter} (hn : AllNamed P n)
    (h : Parameter.ofNode? n = some p) : p.Holds P := by
  unfold Parameter.ofNode? at h
  split at h
  . next hkind =>
    rw [Option.some.injEq] at h
    subst h
    exact ⟨hn.root.text_identifier hkind, trivial⟩
  . split at h
    . rw [Option.map_eq_some_iff] at h
      rcases h with ⟨name, hname, rfl⟩
      have hmem := mem_children_of_namedChildren (List.mem_of_find?_eq_some hname)
      have hkind := List.find?_some hname
      exact ⟨(hn.child hmem).root.text_identifier (eq_of_beq hkind), Annotation.holds_ofField "type" n hn⟩
    . split at h
      . rw [Option.map_eq_some_iff] at h
        rcases h with ⟨name, hname, rfl⟩
        rw [Option.filter_eq_some_iff] at hname
        have hmem := mem_children_of_child? hname.1
        exact ⟨(hn.child hmem).root.text_identifier (eq_of_beq hname.2), Annotation.holds_ofField "type" n hn⟩
      . contradiction

theorem holds_of_mem_parametersOf {n : Node} {p : Parameter} (hn : AllNamed P n)
    (h : p ∈ parametersOf n) : p.Holds P := by
  unfold parametersOf at h
  rw [List.mem_filterMap] at h
  rcases h with ⟨m, hm, hp⟩
  apply Parameter.holds_ofNode? (hn.child (mem_children_of_namedChildren hm)) hp

theorem oneLine_docSummary (body : Node) : OneLine (docSummary body).toList := by
  unfold docSummary
  split
  . intro c hc
    contradiction
  . rw [String.toList_ofList]
    apply oneLine_summary

/--
A property of all names in a record.
-/
structure Record.Holds (P : String → Prop) (r : Record) : Prop where
  name : P r.name
  parameters : ∀ p ∈ r.parameters, p.Holds P
  returns : r.returns.Holds P
  calls : ∀ c ∈ r.calls, P c

theorem holds_of_definedName? {n : Node} {name : String} (hn : AllNamed P n)
    (h : definedName? n = some name) : P name := by
  unfold definedName? at h
  split at h
  . next hkind =>
    rw [Option.map_eq_some_iff] at h
    rcases h with ⟨m, hm, rfl⟩
    apply hn.root.text_name hkind m hm
  . contradiction

theorem holds_of_calleeAt? {root : Node} {p : Path} {callee : String} (hroot : AllNamed P root)
    (h : calleeAt? root p = some callee) : P callee := by
  unfold calleeAt? at h
  split at h
  . contradiction
  . next n hn =>
    split at h
    . split at h
      . contradiction
      . next f hf =>
        split at h
        . next hkind =>
          rw [Option.some.injEq] at h
          rw [← h]
          apply ((hroot.at hn).child (mem_children_of_child? hf)).root.text_identifier hkind.1
        . contradiction
    . contradiction

theorem holds_of_mem_parameters_ofDefinition {n : Node} {p : Parameter} (name : String)
    (hn : AllNamed P n) (h : p ∈ (Record.ofDefinition name n).parameters) : p.Holds P := by
  unfold Record.ofDefinition at h
  dsimp only at h
  cases hlist : n.child? "parameters" with
  | none => simp [hlist] at h
  | some list =>
    rw [hlist] at h
    apply holds_of_mem_parametersOf (hn.child (mem_children_of_child? hlist)) h

theorem oneLine_summary_ofDefinition (name : String) (n : Node)
    : OneLine (Record.ofDefinition name n).summary.toList := by
  unfold Record.ofDefinition
  cases n.child? "body" with
  | none =>
    intro c hc
    contradiction
  | some body => apply oneLine_docSummary

/--
In the table of a tree a property of the identifiers holds of all names, and every summary is one line.
-/
theorem holds_of_mem_extract {root : Node} {r : Record} (hroot : AllNamed P root)
    (h : r ∈ (extract root).records) : r.Holds P ∧ OneLine r.summary.toList := by
  rcases exists_get?_extract (List.mem_map_of_mem h) with ⟨d, n, hd, hn, hget⟩
  rw [Table.get?_of_mem h, Option.some.injEq] at hget
  have hname : definedName? n = some r.name := by
    rw [← definedAt?_of_at? hn]
    exact hd.defined
  have hnode := hroot.at hn
  rw [hget]
  refine ⟨⟨holds_of_definedName? hnode hname, ?_, Annotation.holds_ofField _ n hnode, ?_⟩,
    oneLine_summary_ofDefinition r.name n⟩
  . intro p hp
    apply holds_of_mem_parameters_ofDefinition r.name hnode hp
  . intro c hc
    dsimp only at hc
    unfold callsOf at hc
    rw [List.mem_filterMap] at hc
    rcases hc with ⟨p, _, hp⟩
    apply holds_of_calleeAt? hroot hp

end CallFlow.Functions
