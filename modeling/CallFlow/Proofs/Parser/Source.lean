import CallFlow.Parser.Source
import CallFlow.Proofs.Automaton.Kind
import CallFlow.Proofs.Parser.Engine
import CallFlow.Proofs.Syntax.Order

/-!
This module contains what holds of the nodes of every source. They are well placed (`wellPlaced_parseSource`).
And the parser says that there is an error just where a node shows one, or where a token is missing that would
not show (`hasError_iff`).
-/

namespace CallFlow.Parser

open CallFlow.Text CallFlow.Automaton CallFlow.Syntax

/--
A node and all nodes below it are placed, and they start at places of the text.
-/
def Settled (text : Array Char) (n : Node) : Prop :=
  ∀ p m, n.at? p = some m → Placed m ∧ ∃ q, IsPlace text q ∧ m.start = q.toPosition

/--
Settled nodes that stand one behind the other between two bytes of the text.
-/
def NodeRow (text : Array Char) (p : Nat) : List Node → Nat → Prop
  | [], q => p ≤ q
  | n :: ns, q => Settled text n ∧ p ≤ n.start.byte ∧ NodeRow text n.stop.byte ns q

variable {text : Array Char} {p q r : Nat} {n : Node} {ms ns : List Node}

namespace Settled

theorem placed (h : Settled text n) : Placed n := (h [] n rfl).1

theorem wellPlaced (h : Settled text n) : WellPlaced n := by
  constructor
  . intro p m hm
    exact (h p m hm).1
  . intro p m hm q m' hm' hle
    rcases (h p m hm).2 with ⟨x, hx, hstart⟩
    rcases (h q m' hm').2 with ⟨y, hy, hstart'⟩
    rw [hstart, hstart'] at hle ⊢
    exact hx.upTo hy hle

theorem of_children {x : Place} (hplaced : Placed n) (hx : IsPlace text x) (hstart : n.start = x.toPosition)
    (hchildren : ∀ c ∈ n.children, Settled text c) : Settled text n := by
  intro p m hm
  cases p with
  | nil =>
    rw [Node.at?_nil, Option.some.injEq] at hm
    rw [← hm]
    exact ⟨hplaced, x, hx, hstart⟩
  | cons i p =>
    rw [Node.at?_cons, Option.bind_eq_some_iff] at hm
    rcases hm with ⟨c, hc, hm⟩
    exact hchildren c (List.mem_of_getElem? hc) p m hm

theorem of_mem_children (h : Settled text n) {c : Node} (hc : c ∈ n.children) : Settled text c := by
  rcases List.getElem?_of_mem hc with ⟨i, hi⟩
  intro p m hm
  apply h (i :: p)
  rw [Node.at?_cons, hi, Option.bind_some, hm]

theorem setField (h : Settled text n) (f : Option String) : Settled text { n with field := f } := by
  rcases (h [] n rfl).2 with ⟨x, hx, hstart⟩
  apply of_children (n := { n with field := f }) _ hx hstart
  . intro c hc
    exact h.of_mem_children hc
  . exact ⟨h.placed.start_le_stop, h.placed.within, h.placed.apart⟩

end Settled

namespace NodeRow

theorem le (h : NodeRow text p ns q) : p ≤ q := by
  induction ns generalizing p with
  | nil => exact h
  | cons n ns ih =>
    have := h.1.placed.start_le_stop
    have := ih h.2.2
    have := h.2.1
    omega

theorem of_le (h : NodeRow text p ns q) (hle : r ≤ p) : NodeRow text r ns q := by
  cases ns with
  | nil => exact Nat.le_trans hle h
  | cons n ns => exact ⟨h.1, Nat.le_trans hle h.2.1, h.2.2⟩

theorem append (hms : NodeRow text p ms q) (hns : NodeRow text q ns r)
    : NodeRow text p (ms ++ ns) r := by
  induction ms generalizing p with
  | nil => exact hns.of_le hms
  | cons m ms ih => exact ⟨hms.1, hms.2.1, ih hms.2.2⟩

theorem settled (h : NodeRow text p ns q) : ∀ n ∈ ns, Settled text n := by
  induction ns generalizing p with
  | nil =>
    intro n hn
    contradiction
  | cons n ns ih => exact List.forall_mem_cons.mpr ⟨h.1, ih h.2.2⟩

theorem within (h : NodeRow text p ns q) : ∀ n ∈ ns, p ≤ n.start.byte ∧ n.stop.byte ≤ q := by
  induction ns generalizing p with
  | nil =>
    intro n hn
    contradiction
  | cons n ns ih =>
    rw [List.forall_mem_cons]
    refine ⟨⟨h.2.1, h.2.2.le⟩, ?_⟩
    intro m hm
    have := ih h.2.2 m hm
    have := h.1.placed.start_le_stop
    have := h.2.1
    omega

theorem apart (h : NodeRow text p ns q) : ns.Pairwise fun m n => m.stop.byte ≤ n.start.byte := by
  induction ns generalizing p with
  | nil => exact List.Pairwise.nil
  | cons n ns ih =>
    rw [List.pairwise_cons]
    exact ⟨fun m hm => (h.2.2.within m hm).1, ih h.2.2⟩

theorem labelFirst (h : NodeRow text p ns q) (f : Option String)
    : NodeRow text p (Parser.labelFirst f ns) q := by
  cases ns with
  | nil => exact h
  | cons n ns => exact ⟨h.1.setField _, h.2.1, h.2.2⟩

/--
A node that takes a row as its children is settled.
-/
theorem settled_parent {x y : Place} (h : NodeRow text x.byte n.children y.byte) (hx : IsPlace text x)
    (hstart : n.start = x.toPosition) (hstop : n.stop = y.toPosition) : Settled text n := by
  apply Settled.of_children _ hx hstart h.settled
  constructor
  . rw [hstart, hstop]
    exact h.le
  . rw [hstart, hstop]
    exact h.within
  . exact h.apart

end NodeRow

variable {a : Automaton}

theorem nodeRow_toNodesAll (labels : Labels) (index : Nat) {cs : List Subtree} (hle : p ≤ q)
    (hnodes : ∀ c ∈ cs, ∀ rename field,
      NodeRow text c.info.start.byte (toNodes a text rename field c) c.info.stop.byte)
    (hsound : ∀ c ∈ cs, Sound a text c)
    (hwithin : ∀ c ∈ cs, p ≤ c.info.start.byte ∧ c.info.stop.byte ≤ q)
    (hapart : cs.Pairwise fun c d => c.info.stop.byte ≤ d.info.before.byte)
    : NodeRow text p (toNodesAll a text labels index cs) q := by
  induction cs generalizing p index with
  | nil =>
    unfold toNodesAll
    exact hle
  | cons c cs ih =>
    rw [List.forall_mem_cons] at hnodes hsound hwithin
    rw [List.pairwise_cons] at hapart
    have hrest (index : Nat) : NodeRow text c.info.stop.byte (toNodesAll a text labels index cs) q := by
      apply ih index hwithin.1.2 hnodes.2 hsound.2 _ hapart.2
      intro d hd
      have := hapart.1 d hd
      have := (hsound.2 d hd).at_info.before_le_start
      have := hwithin.2 d hd
      omega
    unfold toNodesAll
    split
    . exact ((hnodes.1 _ _).of_le hwithin.1.1).append (hrest index)
    . exact ((hnodes.1 _ _).of_le hwithin.1.1).append (hrest (index + 1))

/--
A sound tree shows as nodes that stand within it, one behind the other.
-/
theorem nodeRow_toNodes {t : Subtree} (h : Sound a text t) (rename : Option Grammar.Alias)
    (field : Option String)
    : NodeRow text t.info.start.byte (toNodes a text rename field t) t.info.stop.byte := by
  induction h generalizing rename field with
  | @mk i cs here children ih =>
    have hrow : NodeRow text i.start.byte (toNodesAll a text (a.labels.getD i.labels {}) 0 cs)
        i.stop.byte := by
      apply nodeRow_toNodesAll _ _ here.start_le_stop ih children _ here.apart
      intro c hc
      exact (here.within c hc).2
    unfold toNodes
    dsimp only
    split
    . exact hrow.labelFirst field
    . refine ⟨?_, Nat.le_refl _, Nat.le_refl _⟩
      exact hrow.settled_parent here.isPlace_start rfl rfl

/-! Errors. -/

variable {a : Automaton} {s t c : Subtree} {st : Status}

/--
One of the nodes or a node below one of them has the status.
-/
def Shows (ns : List Node) (st : Status) : Prop :=
  ∃ n ∈ ns, ∃ p m, n.at? p = some m ∧ m.status = st

theorem Shows.mono (h : Shows ns st) (hms : ∀ n ∈ ns, n ∈ ms) : Shows ms st := by
  rcases h with ⟨n, hn, hp⟩
  exact ⟨n, hms n hn, hp⟩

theorem shows_append : Shows (ms ++ ns) st ↔ Shows ms st ∨ Shows ns st := by
  constructor
  . rintro ⟨n, hn, hp⟩
    exact (List.mem_append.mp hn).imp (fun hn => ⟨n, hn, hp⟩) fun hn => ⟨n, hn, hp⟩
  . rintro (h | h)
    . exact h.mono fun n hn => List.mem_append_left _ hn
    . exact h.mono fun n hn => List.mem_append_right _ hn

theorem shows_cons : Shows (n :: ns) st ↔ (n.status = st ∨ Shows n.children st) ∨ Shows ns st := by
  constructor
  . rintro ⟨x, hx, p, m, hm, hst⟩
    rcases List.mem_cons.mp hx with rfl | hx
    . left
      cases p with
      | nil =>
        rw [Node.at?_nil, Option.some.injEq] at hm
        left
        rw [hm, hst]
      | cons i p =>
        rw [Node.at?_cons, Option.bind_eq_some_iff] at hm
        rcases hm with ⟨c, hc, hm⟩
        exact .inr ⟨c, List.mem_of_getElem? hc, p, m, hm, hst⟩
    . exact .inr ⟨x, hx, p, m, hm, hst⟩
  . rintro ((hst | ⟨c, hc, p, m, hm, hst⟩) | h)
    . exact ⟨n, List.mem_cons_self, [], n, Node.at?_nil n, hst⟩
    . rcases List.getElem?_of_mem hc with ⟨i, hi⟩
      refine ⟨n, List.mem_cons_self, i :: p, m, ?_, hst⟩
      rw [Node.at?_cons, hi, Option.bind_some, hm]
    . exact h.mono fun x hx => List.mem_cons_of_mem n hx

theorem not_shows_nil : ¬ Shows [] st := by
  rintro ⟨n, hn, _⟩
  contradiction

theorem shows_labelFirst (f : Option String) : Shows (labelFirst f ns) st ↔ Shows ns st := by
  cases ns with
  | nil => exact Iff.rfl
  | cons n ns =>
    unfold labelFirst
    rw [shows_cons, shows_cons]

theorem shows_toNodesAll (labels : Labels) (index : Nat) {cs : List Subtree} (hc : c ∈ cs)
    (h : ∀ rename field, Shows (toNodes a text rename field c) st)
    : Shows (toNodesAll a text labels index cs) st := by
  induction cs generalizing index with
  | nil => contradiction
  | cons d cs ih =>
    unfold toNodesAll
    rcases List.mem_cons.mp hc with rfl | hc
    . split
      . exact shows_append.mpr (.inl (h _ _))
      . exact shows_append.mpr (.inl (h _ _))
    . split
      . exact shows_append.mpr (.inr (ih index hc))
      . exact shows_append.mpr (.inr (ih (index + 1) hc))

/--
A visible tree shows as a node, however deep it stands.
-/
theorem shows_toNodes (h : Within s t) (hs : (a.kind s.symbol).visible) (rename : Option Grammar.Alias)
    (field : Option String) : Shows (toNodes a text rename field t) (statusOf a s.info) := by
  induction h generalizing rename field with
  | self =>
    rcases s with ⟨i, cs⟩
    have hvisible : (a.kind i.symbol).visible = true := hs
    unfold toNodes
    dsimp only
    rw [if_pos hvisible]
    cases rename with
    | none => exact shows_cons.mpr (.inl (.inl rfl))
    | some r => exact shows_cons.mpr (.inl (.inl rfl))
  | @child t c hc hwithin ih =>
    rcases t with ⟨i, cs⟩
    have hchildren : Shows (toNodesAll a text (a.labels.getD i.labels {}) 0 cs) (statusOf a s.info) :=
      shows_toNodesAll _ 0 hc ih
    unfold toNodes
    dsimp only
    split
    . exact (shows_labelFirst field).mpr hchildren
    . exact shows_cons.mpr (.inl (.inr hchildren))

theorem exists_of_shows_toNodesAll (labels : Labels) (index : Nat) {cs : List Subtree}
    (h : Shows (toNodesAll a text labels index cs) st)
    : ∃ c ∈ cs, ∃ rename field, Shows (toNodes a text rename field c) st := by
  induction cs generalizing index with
  | nil =>
    unfold toNodesAll at h
    exact absurd h not_shows_nil
  | cons c cs ih =>
    have hrest (index : Nat) (h : Shows (toNodesAll a text labels index cs) st)
        : ∃ d ∈ c :: cs, ∃ rename field, Shows (toNodes a text rename field d) st := by
      rcases ih index h with ⟨d, hd, hshows⟩
      exact ⟨d, List.mem_cons_of_mem c hd, hshows⟩
    unfold toNodesAll at h
    split at h
    . rcases shows_append.mp h with h | h
      . exact ⟨c, List.mem_cons_self, _, _, h⟩
      . exact hrest index h
    . rcases shows_append.mp h with h | h
      . exact ⟨c, List.mem_cons_self, _, _, h⟩
      . exact hrest (index + 1) h

/--
Every node of a tree comes of a tree in it.
-/
theorem exists_of_shows (ht : Sound a text t) {rename : Option Grammar.Alias} {field : Option String}
    (h : Shows (toNodes a text rename field t) st) : ∃ s, Within s t ∧ statusOf a s.info = st := by
  induction ht generalizing rename field with
  | @mk i cs here children ih =>
    have hchildren (h : Shows (toNodesAll a text (a.labels.getD i.labels {}) 0 cs) st)
        : ∃ s, Within s (.mk i cs) ∧ statusOf a s.info = st := by
      rcases exists_of_shows_toNodesAll _ 0 h with ⟨c, hc, _, _, hshows⟩
      rcases ih c hc hshows with ⟨s, hs, hst⟩
      exact ⟨s, .child hc hs, hst⟩
    unfold toNodes at h
    dsimp only at h
    split at h
    . exact hchildren ((shows_labelFirst field).mp h)
    . rcases shows_cons.mp h with (hst | hshows) | hnil
      . exact ⟨_, .self, hst⟩
      . exact hchildren hshows
      . exact absurd hnil not_shows_nil

theorem Subtree.statusOf_ne_present
    : statusOf a t.info ≠ .present ↔ t.info.missing ∨ t.symbol = a.errorSymbol := by
  unfold statusOf
  split
  . next hmissing => exact iff_of_true Status.noConfusion (.inl hmissing)
  . next hmissing =>
    split
    . next hsymbol => exact iff_of_true Status.noConfusion (.inr (beq_iff_eq.mp hsymbol))
    . next hsymbol =>
      rw [beq_iff_eq] at hsymbol
      exact iff_of_false (fun h => h rfl) fun h => h.elim hmissing hsymbol

theorem Subtree.faulty_of_missing (h : t.info.missing) : t.Faulty a := by
  refine .inr (.inr ?_)
  unfold errorCost
  rw [if_pos h]
  exact Nat.lt_of_lt_of_le (Nat.zero_lt_succ _) (Nat.le_add_left _ _)

/--
What is given for a text costs something just if it shows a node that is missing or an error, or if a hidden
token is missing in it.
-/
theorem Whole.errorCost_pos_iff (h : Whole a text t) (herror : (a.kind a.errorSymbol).visible)
    (hne : t.symbol ≠ a.errorRepeat)
    : 0 < t.errorCost ↔ (∃ st, st ≠ .present ∧ Shows (toNodes a text none none t) st) ∨
        ∃ s, Within s t ∧ s.info.missing ∧ (a.kind s.symbol).visible = false := by
  constructor
  . intro hcost
    rcases h.sound.exists_fault hcost with hrepeat | ⟨s, hs, hfault⟩
    . contradiction
    . by_cases hvisible : (a.kind s.symbol).visible
      . exact .inl ⟨_, Subtree.statusOf_ne_present.mpr hfault, shows_toNodes hs hvisible none none⟩
      . rcases hfault with hmissing | hsymbol
        . exact .inr ⟨s, hs, hmissing, Bool.eq_false_iff.mpr hvisible⟩
        . rw [hsymbol] at hvisible
          contradiction
  . intro hfault
    apply h.cost_pos
    rcases hfault with ⟨st, hst, hshows⟩ | ⟨s, hs, hmissing, _⟩
    . rcases exists_of_shows h.sound hshows with ⟨s, hs, rfl⟩
      apply h.sound.faulty_of_within hs
      rcases Subtree.statusOf_ne_present.mp hst with hmissing | hsymbol
      . exact Subtree.faulty_of_missing hmissing
      . exact .inl hsymbol
    . exact h.sound.faulty_of_within hs (Subtree.faulty_of_missing hmissing)

theorem exists_toNodes_eq (text : Array Char) (hvisible : (a.kind t.symbol).visible)
    : ∃ n, toNodes a text none none t = [n] := by
  rcases t with ⟨i, cs⟩
  have hvisible : (a.kind i.symbol).visible = true := hvisible
  unfold toNodes
  dsimp only
  rw [if_pos hvisible]
  exact ⟨_, rfl⟩

/-! Of a source. -/

/--
The first node of a sound tree, or the empty error where there is none.
-/
theorem settled_head {a : Automaton} {text : Array Char} {t : Subtree} (h : Sound a text t)
    : Settled text ((toNodes a text none none t).head?.getD { kind := "ERROR", status := .error }) := by
  have hrow := nodeRow_toNodes h none none
  cases hnodes : toNodes a text none none t with
  | nil =>
    apply NodeRow.settled_parent (x := {}) (y := {})
    . exact Nat.le_refl _
    . exact IsPlace.origin text
    . rfl
    . rfl
  | cons n ns =>
    rw [hnodes] at hrow
    exact hrow.1

theorem whole_parse_python (text : Array Char) : Whole python text (parse python text) :=
  whole_parse (wellBuilt_ofGrammar Grammar.Python.grammar) text

/--
The nodes of a source are well placed.
-/
theorem wellPlaced_parseSource (source : String) : WellPlaced (parseSource source).root := by
  have h := settled_head (whole_parse_python source.toList.toArray).sound
  unfold parseSource
  dsimp only
  exact h.wellPlaced

/--
The faults of a source come in order.
-/
theorem pairwise_upTo_faults_parseSource (source : String)
    : (parseSource source).root.faults.Pairwise Fault.UpTo :=
  pairwise_upTo_faults (wellPlaced_parseSource source)

/--
The parser says that there is an error just where a node is missing or an error, or where a token is missing
that shows as no node.
-/
theorem hasError_iff (source : String)
    (hvisible : (python.kind (parse python source.toList.toArray).symbol).visible)
    : (parseSource source).hasError ↔
        (∃ p n, (parseSource source).root.at? p = some n ∧ n.status ≠ .present) ∨
        ∃ s, Within s (parse python source.toList.toArray) ∧ s.info.missing ∧
          (python.kind s.symbol).visible = false := by
  have herror : (python.kind python.errorSymbol).visible = true :=
    congrArg Kind.visible (kind_errorSymbol Grammar.Python.grammar)
  have hne : (parse python source.toList.toArray).symbol ≠ python.errorRepeat := by
    intro heq
    have hhidden := congrArg Kind.visible (kind_errorRepeat Grammar.Python.grammar)
    rw [heq] at hvisible
    exact Bool.false_ne_true (hhidden.symm.trans hvisible)
  have hcost := (whole_parse_python source.toList.toArray).errorCost_pos_iff herror hne
  rcases exists_toNodes_eq source.toList.toArray hvisible with ⟨root, hroot⟩
  have hshows : (∃ st, st ≠ .present ∧ Shows [root] st) ↔
      ∃ p n, root.at? p = some n ∧ n.status ≠ .present := by
    constructor
    . rintro ⟨st, hst, n, hn, p, m, hm, rfl⟩
      rw [List.mem_singleton.mp hn] at hm
      exact ⟨p, m, hm, hst⟩
    . rintro ⟨p, m, hm, hst⟩
      exact ⟨m.status, hst, root, List.mem_singleton_self root, p, m, hm, rfl⟩
  rw [hroot, hshows] at hcost
  unfold parseSource
  dsimp only
  rw [hroot, decide_eq_true_iff]
  exact hcost

end CallFlow.Parser
