import CallFlow.Parser.Lex
import CallFlow.Proofs.Lexer.Cursor
import CallFlow.Proofs.Parser.Run

/-!
This module contains that the token that is read next stands behind the head that reads it, and that reading
it does not change the run (`ensures_next`).
-/

namespace CallFlow.Parser

open CallFlow.Text CallFlow.Automaton CallFlow.Lexer

variable {env : Env} {r : Run} {v state : Nat} {p : Place}

namespace Stack

theorem ensures_hasAdvanced {Q : Bool → Run → Prop} (h : ∀ b, Q b r) : Ensures env r (hasAdvanced v) Q := by
  have hgo (x : Head) (fuel : Nat) (t : StackNode) : Ensures env r (hasAdvanced.go x fuel t) Q := by
    induction fuel generalizing t with
    | zero =>
      unfold hasAdvanced.go
      exact h _
    | succ fuel ih =>
      unfold hasAdvanced.go
      dsimp only
      split
      . split
        . exact h _
        . split
          . rw [ensures_bind, ensures_node]
            exact ih _
          . exact h _
      . exact h _
  unfold hasAdvanced
  simp only [ensures_bind, ensures_head, ensures_top]
  split
  . exact h _
  . rw [ensures_bind, ensures_get]
    exact hgo _ _ _

end Stack

namespace Lex

variable {text : Array Char} {c : Cursor} {mode : Mode} {old : Option LayoutState}

theorem reads_runDfa (states : Array DfaState) (fuel q : Nat) (found : Option Found) (h : Reads text p c)
    : Reads text p (runDfa states fuel q c found).2 := by
  induction fuel generalizing q c found with
  | zero => exact h
  | succ fuel ih =>
    unfold runDfa
    extract_lets s
    split
    next found' c' hmarked =>
      have hmark : Reads text p c' := by
        split at hmarked
        . rw [← (Prod.mk.inj hmarked).2]
          exact h.markEnd
        . rw [← (Prod.mk.inj hmarked).2]
          exact h
      split
      . split
        . exact ih _ _ hmark
        . exact hmark
      . split
        . exact ih _ _ (hmark.skip.ite hmark.advance)
        . exact hmark

theorem ensures_layoutHit {inError : Bool} (hp : IsPlace env.text p)
    : Ensures env r (layoutHit v state inError mode old p) fun hit r' =>
        r' = r ∧ FoundFrom env.text p Hit.cursor hit := by
  have hscan : FoundFrom env.text p Layout.Result.cursor
      (Layout.scan ⟨mode.layout⟩ (old.getD {}) (.beginAt env.text p)) :=
    Layout.found_scan (Reads.beginAt hp)
  unfold layoutHit
  split
  . exact ⟨rfl, trivial⟩
  . simp only [ensures_bind, ensures_read]
    split
    . exact ⟨rfl, trivial⟩
    . next res hres =>
      have hreads := hscan.reads hres
      split
      . rw [ensures_bind]
        apply Stack.ensures_hasAdvanced
        intro advanced
        split
        . exact ⟨rfl, trivial⟩
        . exact ⟨rfl, hreads⟩
      . exact ⟨rfl, hreads⟩

theorem ensures_tokenHit (hp : IsPlace env.text p)
    : Ensures env r (tokenHit mode p) fun res r' =>
        r' = r ∧ FoundFrom env.text p Hit.cursor res.1 ∧ Reads env.text p res.2 := by
  have h := reads_runDfa env.automaton.lexer ((Cursor.beginAt env.text p).remaining + 2) mode.start none
    (Reads.beginAt hp)
  unfold tokenHit
  simp only [ensures_bind, ensures_read]
  split
  . exact ⟨rfl, h, h⟩
  . exact ⟨rfl, h, h⟩
  . exact ⟨rfl, trivial, h⟩

/--
What a search finds stands behind the byte `q`.
-/
def Outcome.Behind (text : Array Char) (q : Nat) : Outcome → Prop
  | .hit h => ∃ p, q ≤ p.byte ∧ Reads text p h.cursor
  | .skipped start stop => IsPlace text start ∧ IsPlace text stop ∧ q ≤ start.byte ∧ start.byte ≤ stop.byte

/--
The text that fits nothing so far stands behind the byte `q` and goes up to the byte `m` or less far.
-/
structure SkippedOk (text : Array Char) (q m : Nat) (s : Place × Place) : Prop where
  behind : Outcome.Behind text q (.skipped s.1 s.2)
  stop_le : s.2.byte ≤ m

theorem behind_done (skipped : Option (Place × Place)) (h : Hit) {q m : Nat}
    : (∀ s ∈ skipped, SkippedOk text q m s) → Outcome.Behind text q (.hit h) →
        Outcome.Behind text q (match skipped with
          | some (start, stop) => .skipped start stop
          | none => .hit h) := by
  intro hskipped hhit
  cases skipped with
  | none => exact hhit
  | some s => exact (hskipped s rfl).behind

theorem ensures_search {origin : Place} (horigin : IsPlace env.text origin) (fuel : Nat) (inError : Bool)
    (skipped : Option (Place × Place)) (hp : IsPlace env.text p) (hle : origin.byte ≤ p.byte)
    (hskipped : ∀ s ∈ skipped, SkippedOk env.text origin.byte p.byte s)
    : Ensures env r (search v state old origin fuel inError p skipped) fun o r' =>
        r' = r ∧ o.Behind env.text origin.byte := by
  induction fuel generalizing p inError skipped with
  | zero => exact ⟨rfl, hp, hp, hle, Nat.le_refl _⟩
  | succ fuel ih =>
    unfold search
    simp only [ensures_bind, ensures_read]
    apply (ensures_layoutHit hp).imp
    rintro hit r' ⟨rfl, hhit⟩
    cases hit with
    | some h => exact ⟨rfl, behind_done skipped h hskipped ⟨p, hle, hhit⟩⟩
    | none =>
      dsimp only
      rw [ensures_bind]
      apply (ensures_tokenHit hp).imp
      rintro ⟨hit, c⟩ r' ⟨rfl, hhit, hc⟩
      cases hit with
      | some h => exact ⟨rfl, behind_done skipped h hskipped ⟨p, hle, hhit⟩⟩
      | none =>
        dsimp only at hc ⊢
        split
        . apply ih true none horigin (Nat.le_refl _)
          intro s hs
          contradiction
        . -- What fits nothing goes from where it begins to where the cursor has come to.
          have hs : SkippedOk env.text origin.byte c.start.byte (skipped.getD (c.start, c.start)) := by
            cases skipped with
            | none =>
              exact ⟨⟨hc.start, hc.start, Nat.le_trans hle hc.from_le_start, Nat.le_refl _⟩, Nat.le_refl _⟩
            | some s =>
              have := hskipped s rfl
              exact ⟨this.behind, Nat.le_trans this.stop_le hc.from_le_start⟩
          generalize skipped.getD (c.start, c.start) = s at hs
          have hgo (q : Place) (hq : IsPlace env.text q) (hle' : c.here.byte ≤ q.byte)
              : Ensures env r' (search v state old origin fuel true q (some (s.1, q))) fun o r'' =>
                  r'' = r' ∧ o.Behind env.text origin.byte := by
            have hstart := hc.from_le_here
            have hstop := hs.stop_le
            have hhere := hc.start_le_here
            rcases hs.behind with ⟨hs₁, hs₂, hs₃, hs₄⟩
            apply ih true _ hq (by omega)
            rintro _ ⟨⟩
            exact ⟨⟨hs₁, hq, hs₃, by dsimp only; omega⟩, Nat.le_refl _⟩
          split
          . split
            . exact ⟨rfl, hs.behind⟩
            . exact hgo _ hc.advance.here c.here_le_advance
          . exact hgo c.here hc.here (Nat.le_refl _)

theorem ensures_keyword {start stop : Place} {Q : Option SymCode → Run → Prop} (h : ∀ k, Q k r)
    : Ensures env r (keyword state start stop) Q := by
  unfold keyword
  rw [ensures_bind, ensures_read]
  dsimp only
  split
  . split
    . exact h _
    . exact h _
  . exact h _

/--
The next token is a leaf that stands behind the head that reads it. Reading changes nothing else.
-/
theorem ensures_next (hr : Valid env r)
    : Ensures env r (next v state) fun t r' =>
        r' = r ∧ Sound env.automaton env.text t ∧ byteAt r.nodes (r.head v).node ≤ t.info.before.byte ∧
          t.info.errorCost = 0 ∧ t.children = [] := by
  have hplace := (hr.nodeOk (r.head v).node).isPlace
  unfold next
  simp only [ensures_bind, ensures_read, Stack.ensures_place, Stack.ensures_head]
  apply (ensures_search hplace _ _ _ hplace (Nat.le_refl _) _).imp
  . rintro o r' ⟨rfl, hbehind⟩
    have hleaf (i : Info) (hbefore : i.before = (r'.node (r'.head v).node).place)
        (hstart : IsPlace env.text i.start) (hstop : IsPlace env.text i.stop)
        (hle : (r'.node (r'.head v).node).place.byte ≤ i.start.byte) (hle' : i.start.byte ≤ i.stop.byte)
        (hcost : i.errorCost = 0) (hextra : i.extra → i.symbol = env.automaton.numbering.stop)
        : Sound env.automaton env.text (.mk i []) ∧ byteAt r'.nodes (r'.head v).node ≤ i.before.byte ∧
            i.errorCost = 0 ∧ (Subtree.mk i []).children = [] := by
      refine ⟨Sound.leaf ?_ hstart hstop ?_ hle' hcost ?_, ?_, hcost, rfl⟩
      . rw [hbefore]
        exact hplace
      . rw [hbefore]
        exact hle
      . intro h
        rw [hextra h]
        exact env.automaton.numbering.stop_lt_total
      . rw [hbefore]
        exact Nat.le_refl _
    cases o with
    | skipped start stop =>
      rcases hbehind with ⟨hstart, hstop, hle, hle'⟩
      exact ⟨rfl, hleaf _ rfl hstart hstop hle hle' rfl (by intro; contradiction)⟩
    | hit h =>
      rcases hbehind with ⟨q, hq, hreads⟩
      rcases hreads.span with ⟨hstart, hstop, hle, hle'⟩
      have hle := Nat.le_trans hq hle
      dsimp only
      split
      . exact ⟨rfl, hleaf _ rfl hstart hstop hle hle' rfl (by intro; contradiction)⟩
      . split
        . rw [ensures_bind]
          apply ensures_keyword
          intro k
          split
          . exact ⟨rfl, hleaf _ rfl hstart hstop hle hle' rfl (by intro; contradiction)⟩
          . exact ⟨rfl, hleaf _ rfl hstart hstop hle hle' rfl (by intro; contradiction)⟩
        . exact ⟨rfl, hleaf _ rfl hstart hstop hle hle' rfl beq_iff_eq.mp⟩
  . intro s hs
    contradiction

end Lex

end CallFlow.Parser
