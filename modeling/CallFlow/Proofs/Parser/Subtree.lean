import Mathlib.Data.List.TakeWhile
import CallFlow.Parser.Subtree
import CallFlow.Proofs.Text.Place

/-!
This module contains what holds of every tree that the parser builds (`Sound`): it stands at places of the
text with its children in it, one behind the other, and it costs something just if there is an error in it. A
tree that is made of a row of sound trees is sound and takes their place in the row (`Row.node`).
-/

namespace CallFlow.Parser

open CallFlow.Text CallFlow.Automaton

namespace Subtree

variable (a : Automaton) (t : Subtree)

/--
Its parent costs something because of it.
-/
def Counts : Prop := t.symbol ≠ a.errorRepeat ∧ 0 < t.errorCost

/--
It is an error, or there is one in it.
-/
def Faulty : Prop := t.symbol = a.errorSymbol ∨ t.symbol = a.errorRepeat ∨ 0 < t.errorCost

/--
It is an error that does not count before it is put into another one.
-/
def Loose : Prop := t.symbol = a.errorRepeat ∨ t.symbol = a.errorSymbol ∧ t.info.errorCost = 0

variable {a t}

theorem errorCost_pos (h : 0 < t.info.errorCost) : 0 < t.errorCost := by
  unfold errorCost
  split
  . exact Nat.lt_of_lt_of_le (Nat.zero_lt_succ _) (Nat.le_add_left _ _)
  . exact h

theorem counts_of_faulty (h : t.Faulty a) (hloose : ¬ t.Loose a) : t.Counts a := by
  have hne : t.symbol ≠ a.errorRepeat := fun heq => hloose (.inl heq)
  rcases h with herror | hrepeat | hcost
  . exact ⟨hne, errorCost_pos (Nat.pos_of_ne_zero fun hzero => hloose (.inr ⟨herror, hzero⟩))⟩
  . contradiction
  . exact ⟨hne, hcost⟩

theorem not_loose_of_lt (h : t.symbol < a.numbering.total) : ¬ t.Loose a := by
  rintro (heq | ⟨heq, _⟩)
  . exact Nat.ne_of_lt (Nat.lt_succ_of_lt h) heq
  . exact Nat.ne_of_lt h heq

end Subtree

/--
What is wrong with the children of a parent makes it cost something.
-/
def Accounted (a : Automaton) (symbol : SymCode) (ts : List Subtree) : Prop :=
  symbol = a.errorSymbol ∨ symbol = a.errorRepeat ∨ ((∃ t ∈ ts, t.Faulty a) → ∃ t ∈ ts, t.Counts a)

/--
What a tree says about itself fits the text and its children.
-/
structure SoundAt (a : Automaton) (text : Array Char) (i : Info) (cs : List Subtree) : Prop where
  isPlace_before : IsPlace text i.before
  isPlace_start : IsPlace text i.start
  isPlace_stop : IsPlace text i.stop
  before_le_start : i.before.byte ≤ i.start.byte
  start_le_stop : i.start.byte ≤ i.stop.byte
  within : ∀ c ∈ cs, i.before.byte ≤ c.info.before.byte ∧ i.start.byte ≤ c.info.start.byte ∧
    c.info.stop.byte ≤ i.stop.byte
  apart : cs.Pairwise fun c d => c.info.stop.byte ≤ d.info.before.byte
  cost : 0 < i.errorCost → i.symbol = a.errorSymbol ∨ i.symbol = a.errorRepeat ∨ ∃ c ∈ cs, c.Counts a
  cost_pos : ∀ c ∈ cs, c.Faulty a → 0 < i.errorCost
  extra : i.extra → ¬ (Subtree.mk i cs).Loose a

inductive Sound (a : Automaton) (text : Array Char) : Subtree → Prop where
  | mk {i : Info} {cs : List Subtree} (here : SoundAt a text i cs)
      (children : ∀ c ∈ cs, Sound a text c) : Sound a text (.mk i cs)

/--
Sound trees that stand one behind the other between two bytes of the text.
-/
def Row (a : Automaton) (text : Array Char) (p : Nat) : List Subtree → Nat → Prop
  | [], q => p ≤ q
  | t :: ts, q => Sound a text t ∧ p ≤ t.info.before.byte ∧ Row a text t.info.stop.byte ts q

variable {a : Automaton} {text : Array Char} {p q r : Nat} {symbol : SymCode} {t : Subtree}
  {ts us : List Subtree}

theorem accounted_of_not_loose (h : ∀ t ∈ ts, ¬ t.Loose a) : Accounted a symbol ts :=
  .inr (.inr fun ⟨t, ht, hfaulty⟩ => ⟨t, ht, t.counts_of_faulty hfaulty (h t ht)⟩)

namespace Subtree

variable (t) (b : Bool) (c : SymCode) (d : Int)

@[simp]
theorem info_setExtra : (t.setExtra b).info = { t.info with extra := b } := by
  cases t
  rfl

@[simp]
theorem info_setSymbol : (t.setSymbol c).info = { t.info with symbol := c } := by
  cases t
  rfl

@[simp]
theorem children_setSymbol : (t.setSymbol c).children = t.children := by
  cases t
  rfl

@[simp]
theorem info_addDynamic : (t.addDynamic d).info = { t.info with dynamic := t.info.dynamic + d } := by
  cases t
  rfl

@[simp]
theorem loose_setExtra : (t.setExtra b).Loose a ↔ t.Loose a := by
  cases t
  exact Iff.rfl

@[simp]
theorem loose_addDynamic : (t.addDynamic d).Loose a ↔ t.Loose a := by
  cases t
  exact Iff.rfl

end Subtree

namespace Sound

theorem at_info (h : Sound a text t) : SoundAt a text t.info t.children := by
  cases h with
  | mk here children => exact here

theorem of_mem_children (h : Sound a text t) {c : Subtree} (hc : c ∈ t.children) : Sound a text c := by
  cases h with
  | mk here children => exact children c hc

theorem accounted_children (h : Sound a text t) : Accounted a t.symbol t.children := by
  by_cases hfaulty : ∃ c ∈ t.children, c.Faulty a
  . rcases hfaulty with ⟨c, hc, hfaulty⟩
    exact (h.at_info.cost (h.at_info.cost_pos c hc hfaulty)).imp_right fun h => h.imp_right fun h _ => h
  . exact .inr (.inr fun h => absurd h hfaulty)

theorem not_loose_of_extra (h : Sound a text t) (hextra : t.extra) : ¬ t.Loose a := h.at_info.extra hextra

theorem before_le_stop (h : Sound a text t) : t.info.before.byte ≤ t.info.stop.byte :=
  Nat.le_trans h.at_info.before_le_start h.at_info.start_le_stop

/--
A leaf stands for a piece of the text and costs nothing by itself.
-/
theorem leaf {i : Info} (hbefore : IsPlace text i.before) (hstart : IsPlace text i.start)
    (hstop : IsPlace text i.stop) (hle : i.before.byte ≤ i.start.byte) (hle' : i.start.byte ≤ i.stop.byte)
    (hcost : i.errorCost = 0) (hextra : i.extra → i.symbol < a.numbering.total)
    : Sound a text (.mk i []) := by
  refine ⟨⟨hbefore, hstart, hstop, hle, hle', ?_, List.Pairwise.nil, ?_, ?_, ?_⟩, ?_⟩
  . intro c hc
    contradiction
  . intro h
    omega
  . intro c hc
    contradiction
  . intro h
    exact Subtree.not_loose_of_lt (hextra h)
  . intro c hc
    contradiction

theorem setExtra (h : Sound a text t) {b : Bool} (hb : b → ¬ t.Loose a) : Sound a text (t.setExtra b) := by
  cases h with
  | mk here children =>
    exact ⟨{ here with extra := hb }, children⟩

theorem addDynamic (h : Sound a text t) (d : Int) : Sound a text (t.addDynamic d) := by
  cases h with
  | mk here children =>
    exact ⟨{ here with }, children⟩

theorem setSymbol (h : Sound a text t) (c : SymCode) (hcost : t.info.errorCost = 0) (hleaf : t.children = [])
    (hc : c < a.numbering.total) : Sound a text (t.setSymbol c) := by
  cases h with
  | mk here children =>
    refine ⟨{ here with cost := ?_, cost_pos := ?_, extra := ?_ }, children⟩
    . intro hlt
      exact absurd hcost (Nat.ne_of_gt hlt)
    . intro d hd
      rw [Subtree.children] at hleaf
      rw [hleaf] at hd
      contradiction
    . intro _
      exact Subtree.not_loose_of_lt hc

end Sound

namespace Row

theorem le (h : Row a text p ts q) : p ≤ q := by
  induction ts generalizing p with
  | nil => exact h
  | cons t ts ih =>
    have := h.1.before_le_stop
    have := ih h.2.2
    have := h.2.1
    omega

theorem of_le (h : Row a text p ts q) (hle : r ≤ p) : Row a text r ts q := by
  cases ts with
  | nil => exact Nat.le_trans hle h
  | cons t ts => exact ⟨h.1, Nat.le_trans hle h.2.1, h.2.2⟩

theorem to_le (h : Row a text p ts q) (hle : q ≤ r) : Row a text p ts r := by
  induction ts generalizing p with
  | nil => exact Nat.le_trans h hle
  | cons t ts ih => exact ⟨h.1, h.2.1, ih h.2.2⟩

theorem singleton (h : Sound a text t) (hp : p ≤ t.info.before.byte) (hq : t.info.stop.byte ≤ q)
    : Row a text p [t] q :=
  ⟨h, hp, hq⟩

theorem append (hts : Row a text p ts q) (hus : Row a text q us r) : Row a text p (ts ++ us) r := by
  induction ts generalizing p with
  | nil => exact hus.of_le hts
  | cons t ts ih => exact ⟨hts.1, hts.2.1, ih hts.2.2⟩

theorem iff_pairwise
    : Row a text p ts q ↔
        p ≤ q ∧
        (∀ t ∈ ts, Sound a text t ∧ p ≤ t.info.before.byte ∧ t.info.stop.byte ≤ q) ∧
        ts.Pairwise fun t u => t.info.stop.byte ≤ u.info.before.byte := by
  induction ts generalizing p with
  | nil =>
    constructor
    . intro h
      refine ⟨h, ?_, List.Pairwise.nil⟩
      intro t ht
      contradiction
    . intro h
      exact h.1
  | cons t ts ih =>
    rw [List.forall_mem_cons, List.pairwise_cons]
    constructor
    . intro h
      have hle := h.le
      rcases h with ⟨hsound, hp, hrest⟩
      have hstop := hsound.before_le_stop
      rcases ih.mp hrest with ⟨hq, hmem, hpairwise⟩
      refine ⟨hle, ⟨⟨hsound, hp, hq⟩, ?_⟩, ?_, hpairwise⟩
      . intro u hu
        have := hmem u hu
        exact ⟨this.1, by omega, this.2.2⟩
      . intro u hu
        exact (hmem u hu).2.1
    . rintro ⟨_, ⟨⟨hsound, hp, hq⟩, hmem⟩, hstop, hpairwise⟩
      refine ⟨hsound, hp, ?_⟩
      rw [ih]
      refine ⟨hq, ?_, hpairwise⟩
      intro u hu
      exact ⟨(hmem u hu).1, hstop u hu, (hmem u hu).2.2⟩

theorem sound (h : Row a text p ts q) (t : Subtree) (ht : t ∈ ts) : Sound a text t :=
  ((iff_pairwise.mp h).2.1 t ht).1

theorem addDynamic (h : Row a text p (t :: ts) q) (d : Int) : Row a text p (t.addDynamic d :: ts) q := by
  refine ⟨h.1.addDynamic d, ?_⟩
  rw [Subtree.info_addDynamic]
  exact h.2

theorem setExtra (h : Row a text p (t :: ts) q) {b : Bool} (hb : b → ¬ t.Loose a)
    : Row a text p (t.setExtra b :: ts) q := by
  refine ⟨h.1.setExtra hb, ?_⟩
  rw [Subtree.info_setExtra]
  exact h.2

theorem children (h : Sound a text t)
    : Row a text t.info.before.byte t.children t.info.stop.byte := by
  rw [iff_pairwise]
  refine ⟨h.before_le_stop, ?_, h.at_info.apart⟩
  intro c hc
  have := h.at_info.within c hc
  exact ⟨h.of_mem_children hc, this.1, this.2.2⟩

end Row

namespace Subtree

/--
What the children add to their parent is not about its place, and just the children with errors that count
make it cost more.
-/
theorem foldl_addChild (labels : Labels) (cs : List Subtree) (acc : Info × Nat)
    : ∃ i n, cs.foldl (addChild a labels) acc = (i, n) ∧ i.symbol = acc.1.symbol ∧
        i.before = acc.1.before ∧ i.start = acc.1.start ∧ i.stop = acc.1.stop ∧ i.extra = acc.1.extra ∧
        acc.1.errorCost ≤ i.errorCost ∧ (∀ c ∈ cs, c.Counts a → 0 < i.errorCost) ∧
        (0 < i.errorCost → 0 < acc.1.errorCost ∨ i.symbol = a.errorSymbol ∨ i.symbol = a.errorRepeat ∨
          ∃ c ∈ cs, c.Counts a) := by
  induction cs generalizing acc with
  | nil =>
    refine ⟨acc.1, acc.2, rfl, rfl, rfl, rfl, rfl, rfl, Nat.le_refl _, ?_, .inl⟩
    intro c hc
    contradiction
  | cons c cs ih =>
    rcases ih (addChild a labels acc c) with
      ⟨i, n, hfold, hsymbol, hbefore, hstart, hstop, hextra, hle, hcounts, hcost⟩
    refine ⟨i, n, hfold, hsymbol, hbefore, hstart, hstop, hextra, ?_, ?_, ?_⟩
    . apply Nat.le_trans _ hle
      dsimp only [addChild]
      omega
    . rw [List.forall_mem_cons]
      refine ⟨?_, hcounts⟩
      rintro ⟨hne, hpos⟩
      apply Nat.lt_of_lt_of_le _ hle
      dsimp only [addChild]
      rw [if_neg (by rw [beq_iff_eq]; exact hne)]
      omega
    . intro hlt
      rcases hcost hlt with hacc | herror | herror | ⟨d, hd, herror⟩
      . dsimp only [addChild] at hacc
        by_cases hin : acc.1.symbol == a.errorSymbol || acc.1.symbol == a.errorRepeat
        . rw [Bool.or_eq_true, beq_iff_eq, beq_iff_eq] at hin
          rw [hsymbol]
          exact .inr (hin.imp_right .inl)
        . rw [Bool.not_eq_true] at hin
          by_cases hrepeat : c.symbol == a.errorRepeat
          . simp only [hin, hrepeat, Bool.false_and, if_true] at hacc
            exact .inl hacc
          . simp only [hin, hrepeat, Bool.false_and] at hacc
            by_cases hc : 0 < c.errorCost
            . refine .inr (.inr (.inr ⟨c, List.mem_cons_self, ?_, hc⟩))
              rw [beq_iff_eq] at hrepeat
              exact hrepeat
            . left
              have : c.errorCost = 0 := by omega
              rw [this] at hacc
              exact hacc
      . exact .inr (.inl herror)
      . exact .inr (.inr (.inl herror))
      . exact .inr (.inr (.inr ⟨d, List.mem_cons_of_mem c hd, herror⟩))

theorem splitTrailing_append (ts : List Subtree) : (splitTrailing ts).1 ++ (splitTrailing ts).2 = ts := by
  unfold splitTrailing
  dsimp only
  rw [← List.reverse_append, List.takeWhile_append_dropWhile, List.reverse_reverse]

theorem extra_of_mem_splitTrailing (ht : t ∈ (splitTrailing ts).2) : t.extra := by
  unfold splitTrailing at ht
  exact List.mem_takeWhile_imp (List.mem_reverse.mp ht)

/--
What a tree that is made of some trees says about itself.
-/
structure IsParent (a : Automaton) (symbol : SymCode) (place : Place) (cs : List Subtree) (i : Info) :
    Prop where
  symbol_eq : i.symbol = symbol
  before : i.before = (cs.head?.map (·.info.before)).getD place
  start : i.start = (cs.head?.map (·.info.start)).getD place
  stop : i.stop = (cs.getLast?.map (·.info.stop)).getD place
  extra : i.extra = false
  cost : 0 < i.errorCost → symbol = a.errorSymbol ∨ symbol = a.errorRepeat ∨ ∃ c ∈ cs, c.Counts a
  error : symbol = a.errorSymbol ∨ symbol = a.errorRepeat → 0 < i.errorCost
  counts : ∀ c ∈ cs, c.Counts a → 0 < i.errorCost

variable (symbol : SymCode) (labels : Nat) (place : Place) (cs : List Subtree)

theorem exists_node_eq : ∃ i, node a symbol labels place cs = mk i cs ∧ IsParent a symbol place cs i := by
  rcases foldl_addChild (a := a) (a.labels.getD labels {}) cs ({
      symbol
      labels
      before := (cs.head?.map (·.info.before)).getD place
      start := (cs.head?.map (·.info.start)).getD place
      stop := (cs.getLast?.map (·.info.stop)).getD place }, 0) with
    ⟨i, n, hfold, hsymbol, hbefore, hstart, hstop, hextra, _, hcounts, hcost⟩
  dsimp only at hsymbol hbefore hstart hstop hextra hcost
  have hnode : ∃ cost, node a symbol labels place cs =
      if symbol == a.errorSymbol || symbol == a.errorRepeat then
        mk { i with errorCost := i.errorCost + costOfRecovery + cost } cs
      else mk i cs := by
    unfold node
    cases hhead : cs.head? <;> cases hlast : cs.getLast?
    all_goals
      simp only [hhead, hlast, Option.map_some, Option.map_none, Option.getD_some,
        Option.getD_none] at hfold ⊢
      rw [hfold]
      simp only [Nat.add_assoc]
      exact ⟨_, rfl⟩
  rcases hnode with ⟨cost, hnode⟩
  rw [hnode]
  split
  . next herror =>
    rw [Bool.or_eq_true, beq_iff_eq, beq_iff_eq] at herror
    have hpos : 0 < i.errorCost + costOfRecovery + cost := by
      unfold costOfRecovery
      omega
    exact ⟨_, rfl, hsymbol, hbefore, hstart, hstop, hextra, fun _ => herror.imp_right .inl, fun _ => hpos,
      fun _ _ _ => hpos⟩
  . next herror =>
    rw [Bool.or_eq_true, beq_iff_eq, beq_iff_eq] at herror
    refine ⟨_, rfl, hsymbol, hbefore, hstart, hstop, hextra, ?_, fun h => absurd h herror, hcounts⟩
    intro hlt
    rw [← hsymbol]
    exact (hcost hlt).resolve_left (Nat.lt_irrefl 0)

@[simp]
theorem symbol_node : (node a symbol labels place cs).symbol = symbol := by
  rcases exists_node_eq (a := a) symbol labels place cs with ⟨i, hnode, hi⟩
  rw [hnode]
  exact hi.symbol_eq

@[simp]
theorem extra_node : (node a symbol labels place cs).extra = false := by
  rcases exists_node_eq (a := a) symbol labels place cs with ⟨i, hnode, hi⟩
  rw [hnode]
  exact hi.extra

theorem not_loose_node (h : symbol ≠ a.errorRepeat) : ¬ (node a symbol labels place cs).Loose a := by
  rcases exists_node_eq (a := a) symbol labels place cs with ⟨i, hnode, hi⟩
  rw [hnode]
  rintro (heq | ⟨heq, hcost⟩)
  . exact h (hi.symbol_eq.symm.trans heq)
  . exact absurd hcost (Nat.ne_of_gt (hi.error (.inl (hi.symbol_eq.symm.trans heq))))

theorem cost_of_faulty_node (h : (node a symbol labels place cs).Faulty a)
    : 0 < (node a symbol labels place cs).errorCost := by
  rcases exists_node_eq (a := a) symbol labels place cs with ⟨i, hnode, hi⟩
  rw [hnode] at h ⊢
  rcases h with herror | hrepeat | hcost
  . exact errorCost_pos (hi.error (.inl (hi.symbol_eq.symm.trans herror)))
  . exact errorCost_pos (hi.error (.inr (hi.symbol_eq.symm.trans hrepeat)))
  . exact hcost

end Subtree

namespace Row

/--
A row of two parts falls into these.
-/
theorem exists_split (h : Row a text p (ts ++ us) q)
    : ∃ m, Row a text p ts m ∧ Row a text m us q ∧ (ts = [] → m = p) := by
  induction ts generalizing p with
  | nil => exact ⟨p, Nat.le_refl p, h, fun _ => rfl⟩
  | cons t ts ih =>
    rcases ih h.2.2 with ⟨m, hts, hus, _⟩
    refine ⟨m, ⟨h.1, h.2.1, hts⟩, hus, ?_⟩
    intro
    contradiction

end Row

namespace Sound

variable (labels : Nat) (place : Place)

/--
A tree without children stands at the place that it is made at.
-/
theorem node_nil (symbol : SymCode) (h : IsPlace text place)
    : Row a text place.byte [Subtree.node a symbol labels place []] place.byte := by
  rcases Subtree.exists_node_eq (a := a) symbol labels place [] with ⟨i, hnode, hi⟩
  have hbefore : i.before = place := hi.before
  have hstart : i.start = place := hi.start
  have hstop : i.stop = place := hi.stop
  rw [hnode]
  have hsound : Sound a text (.mk i []) := by
    constructor
    . constructor
      case isPlace_before => rwa [hbefore]
      case isPlace_start => rwa [hstart]
      case isPlace_stop => rwa [hstop]
      case before_le_start => exact Nat.le_of_eq (by rw [hbefore, hstart])
      case start_le_stop => exact Nat.le_of_eq (by rw [hstart, hstop])
      case within =>
        intro c hc
        contradiction
      case apart => exact List.Pairwise.nil
      case cost =>
        rw [hi.symbol_eq]
        exact hi.cost
      case cost_pos =>
        intro c hc
        contradiction
      case extra =>
        intro h
        rw [hi.extra] at h
        contradiction
    . intro c hc
      contradiction
  apply Row.singleton hsound
  . exact Nat.le_of_eq (by rw [Subtree.info, hbefore])
  . exact Nat.le_of_eq (by rw [Subtree.info, hstop])

/--
A tree that is made of a row takes its place.
-/
theorem node_row (h : Row a text p ts q) (hne : ts ≠ []) (hacc : Accounted a symbol ts)
    : Row a text p [Subtree.node a symbol labels place ts] q := by
  rcases Subtree.exists_node_eq (a := a) symbol labels place ts with ⟨i, hnode, hi⟩
  have hbefore := hi.before
  have hstart := hi.start
  have hstop := hi.stop
  rw [hnode]
  have hsound := h.sound
  have hwithin (t : Subtree) (ht : t ∈ ts) : p ≤ t.info.before.byte ∧ t.info.stop.byte ≤ q :=
    ((Row.iff_pairwise.mp h).2.1 t ht).2
  have hpairwise := (Row.iff_pairwise.mp h).2.2
  -- The first tree and the last one say where the whole begins and ends.
  rcases List.exists_cons_of_ne_nil hne with ⟨first, rest, hfirst⟩
  rcases List.eq_nil_or_concat ts with hnil | ⟨init, last, hlast⟩
  . contradiction
  rw [List.concat_eq_append] at hlast
  have hmem_first : first ∈ ts := by rw [hfirst]; exact List.mem_cons_self
  have hmem_last : last ∈ ts := by rw [hlast]; exact List.mem_append_right init List.mem_cons_self
  have hbegins (t : Subtree) (ht : t ∈ ts)
      : first.info.before.byte ≤ t.info.before.byte ∧ first.info.start.byte ≤ t.info.start.byte := by
    rw [hfirst] at hpairwise ht
    rcases List.mem_cons.mp ht with rfl | ht'
    . omega
    . have := (List.pairwise_cons.mp hpairwise).1 t ht'
      have := (hsound first hmem_first).at_info.before_le_start
      have := (hsound first hmem_first).at_info.start_le_stop
      rw [← hfirst] at ht
      have := (hsound t ht).at_info.before_le_start
      omega
  have hends (t : Subtree) (ht : t ∈ ts) : t.info.stop.byte ≤ last.info.stop.byte := by
    rw [hlast] at hpairwise ht
    rcases List.mem_append.mp ht with ht | ht
    . have := (List.pairwise_append.mp hpairwise).2.2 t ht last List.mem_cons_self
      have := (hsound last hmem_last).before_le_stop
      omega
    . rcases List.mem_singleton.mp ht with rfl
      exact Nat.le_refl _
  rw [hfirst, List.head?_cons, Option.map_some, Option.getD_some] at hbefore hstart
  rw [hlast, List.getLast?_append_cons, List.getLast?_singleton, Option.map_some, Option.getD_some] at hstop
  have hplace := (hsound first hmem_first).at_info
  apply Row.singleton
  . refine ⟨⟨?_, ?_, ?_, ?_, ?_, ?_, hpairwise, ?_, ?_, ?_⟩, hsound⟩
    . rw [hbefore]
      exact hplace.isPlace_before
    . rw [hstart]
      exact hplace.isPlace_start
    . rw [hstop]
      exact (hsound last hmem_last).at_info.isPlace_stop
    . rw [hbefore, hstart]
      exact hplace.before_le_start
    . rw [hstart, hstop]
      exact Nat.le_trans hplace.start_le_stop (hends first hmem_first)
    . intro c hc
      rw [hbefore, hstart, hstop]
      exact ⟨(hbegins c hc).1, (hbegins c hc).2, hends c hc⟩
    . rw [hi.symbol_eq]
      exact hi.cost
    . intro c hc hfaulty
      rcases hacc with herror | herror | hcounts
      . exact hi.error (.inl herror)
      . exact hi.error (.inr herror)
      . rcases hcounts ⟨c, hc, hfaulty⟩ with ⟨d, hd, hcounts⟩
        exact hi.counts d hd hcounts
    . intro h
      rw [hi.extra] at h
      contradiction
  . rw [Subtree.info, hbefore]
    exact (hwithin first hmem_first).1
  . rw [Subtree.info, hstop]
    exact (hwithin last hmem_last).2

end Sound

/--
A parent takes the place of its children in a row. Without any it stands where the row begins.
-/
theorem Row.node {labels : Nat} {place : Place} (h : Row a text p (ts ++ us) q)
    (hplace : ts = [] → IsPlace text place ∧ place.byte = p) (hacc : Accounted a symbol ts)
    : Row a text p (Subtree.node a symbol labels place ts :: us) q := by
  rcases h.exists_split with ⟨m, hts, hus, hm⟩
  by_cases hne : ts = []
  . have hnode := Sound.node_nil (a := a) labels place symbol (hplace hne).1
    rw [(hplace hne).2] at hnode
    rw [hm hne] at hus
    rw [hne]
    exact hnode.append hus
  . exact (Sound.node_row labels place hts hne hacc).append hus

/--
A tree that may be given for a text: it costs something if there is an error in it, and if it is one.
-/
structure Whole (a : Automaton) (text : Array Char) (t : Subtree) : Prop where
  sound : Sound a text t
  cost_pos : t.Faulty a → 0 < t.errorCost

theorem Row.whole_node (labels : Nat) {place : Place} (h : Row a text p ts q) (hplace : IsPlace text place)
    (hacc : Accounted a symbol ts) : Whole a text (Subtree.node a symbol labels place ts) := by
  refine ⟨?_, Subtree.cost_of_faulty_node symbol labels place ts⟩
  by_cases hne : ts = []
  . rw [hne]
    exact (Sound.node_nil labels place symbol hplace).1
  . exact (Sound.node_row labels place h hne hacc).1

/--
A tree in a row may make way for its children.
-/
theorem Row.inline (h : Row a text p (ts ++ t :: us) q) : Row a text p (ts ++ t.children ++ us) q := by
  rcases h.exists_split with ⟨m, hts, htus, _⟩
  have hchildren := (Row.children htus.1).of_le htus.2.1
  exact (hts.append hchildren).append htus.2.2

/--
The children of the first tree stand where the row stands.
-/
theorem Row.children_head (h : Row a text p ts q)
    : Row a text p ((ts.head?.map Subtree.children).getD []) q := by
  cases ts with
  | nil => exact h
  | cons t ts => exact ((Row.children h.1).of_le h.2.1).to_le h.2.2.le

/-! Errors. -/

/--
The tree `s` is `t` itself or stands somewhere below it.
-/
inductive Within (s : Subtree) : Subtree → Prop where
  | self : Within s s
  | child {t c : Subtree} (hc : c ∈ t.children) (h : Within s c) : Within s t

/--
What costs something is missing or an error, or has such a tree in it.
-/
theorem Sound.exists_fault (h : Sound a text t) (hcost : 0 < t.errorCost)
    : t.symbol = a.errorRepeat ∨ ∃ s, Within s t ∧ (s.info.missing ∨ s.symbol = a.errorSymbol) := by
  induction h with
  | @mk i cs here children ih =>
    unfold Subtree.errorCost at hcost
    split at hcost
    . next hmissing => exact .inr ⟨_, .self, .inl hmissing⟩
    . rcases here.cost hcost with herror | herror | ⟨c, hc, hne, hcost⟩
      . exact .inr ⟨_, .self, .inr herror⟩
      . exact .inl herror
      . rcases ih c hc hcost with herror | ⟨s, hs, hfault⟩
        . contradiction
        . exact .inr ⟨s, .child hc hs, hfault⟩

/--
Whatever has an error in it costs something, or is that error.
-/
theorem Sound.faulty_of_within {s : Subtree} (h : Sound a text t) (hs : Within s t) (hfaulty : s.Faulty a)
    : t.Faulty a := by
  induction hs with
  | self => exact hfaulty
  | child hc _ ih =>
    exact .inr (.inr (Subtree.errorCost_pos (h.at_info.cost_pos _ hc (ih (h.of_mem_children hc)))))

end CallFlow.Parser
