import CallFlow.Automaton.Modes

/-!
This module contains that in every automaton the two symbols that stand for errors come behind all others, and
that of the trees of these only those of the first one show.
-/

namespace CallFlow.Automaton

open CallFlow.Grammar

theorem getElem?_kindsOf_total (g : Productions) (i : Nat)
    : (kindsOf g)[(Numbering.ofProductions g).total + i]?
        = #[(⟨"ERROR", true, true⟩ : Kind), ⟨"ERROR", false, false⟩][i]? := by
  unfold kindsOf
  dsimp only
  rw [Array.getElem?_append_right]
  . congr 1
    simp only [Array.size_append, Array.size_mapIdx, List.size_toArray, List.length_singleton,
      Numbering.total, Numbering.firstRule, Numbering.ofProductions]
    omega
  . simp only [Array.size_append, Array.size_mapIdx, List.size_toArray, List.length_singleton,
      Numbering.total, Numbering.firstRule, Numbering.ofProductions]
    omega

variable (grammar : Grammar)

theorem kind_errorSymbol
    : (ofGrammar grammar).kind (ofGrammar grammar).errorSymbol = ⟨"ERROR", true, true⟩ := by
  have h := getElem?_kindsOf_total (Productions.ofGrammar grammar) 0
  unfold kind
  rw [Array.getD_eq_getD_getElem?]
  exact congrArg (Option.getD · _) h

theorem kind_errorRepeat
    : (ofGrammar grammar).kind (ofGrammar grammar).errorRepeat = ⟨"ERROR", false, false⟩ := by
  have h := getElem?_kindsOf_total (Productions.ofGrammar grammar) 1
  unfold kind
  rw [Array.getD_eq_getD_getElem?]
  exact congrArg (Option.getD · _) h

end CallFlow.Automaton
