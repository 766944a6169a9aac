import CallFlow.Grammar.Python
import CallFlow.Parser.Engine
import CallFlow.Syntax.Fault

/-!
From source text to syntax trees.

Of the parser's tree only the symbols that show become nodes; the children of a hidden one take its
place.
-/
namespace CallFlow.Parser

open CallFlow.Text CallFlow.Automaton CallFlow.Syntax

def labelFirst (field : Option String) : List Node → List Node
  | [] => []
  | n :: ns => { n with field := n.field <|> field } :: ns

def statusOf (a : Automaton) (i : Info) : Status :=
  if i.missing then .missing else if i.symbol == a.errorSymbol then .error else .present

mutual

def toNodes (a : Automaton) (text : Array Char) (rename : Option Grammar.Alias)
    (field : Option String) : Subtree → List Node
  | .mk i cs =>
    let kind := a.kind i.symbol
    let children := toNodesAll a text (a.labels.getD i.labels {}) 0 cs
    let shown : Option (String × Bool) := match rename with
      | some r => some (r.name, r.named)
      | none => if kind.visible then some (kind.name, kind.named) else none
    match shown with
    | none => labelFirst field children
    | some (name, named) =>
      [{ kind := name, named, field
         status := statusOf a i
         start := i.start.toPosition
         stop := i.stop.toPosition
         text := String.ofList (text.extract i.start.index i.stop.index).toList
         children }]

def toNodesAll (a : Automaton) (text : Array Char) (labels : Labels) :
    Nat → List Subtree → List Node
  | _, [] => []
  | index, c :: cs =>
    if c.extra then toNodes a text none none c ++ toNodesAll a text labels index cs
    else
      toNodes a text (labels.renames.getD index none) (labels.fields.getD index none) c ++
        toNodesAll a text labels (index + 1) cs

end

def python : Automaton := Automaton.ofGrammar Grammar.Python.grammar

def parseSource (source : String) : Tree :=
  let text := source.toList.toArray
  let t := parse python text
  { root := ((toNodes python text none none t).head?).getD { kind := "ERROR", status := .error }
    hasError := t.errorCost > 0 }

end CallFlow.Parser
