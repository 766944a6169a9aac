import CallFlow.Text.Line
import CallFlow.Text.Tabs

/-!
Indented text.

The lines of an indented text after its first have a common margin. `clean` removes it, and empty
lines at both ends.
-/
namespace CallFlow.Text

def indent (line : List Char) : Nat := (line.takeWhile isBlank).length

def margin? (ls : List (List Char)) : Option Nat :=
  ((ls.filter fun l => !l.all isBlank).map indent).min?

def dedent (ls : List (List Char)) : List (List Char) :=
  match margin? ls with
  | none => ls
  | some width => ls.map (·.drop width)

def trimLines (ls : List (List Char)) : List (List Char) :=
  (ls.reverse.dropWhile (·.isEmpty)).reverse.dropWhile (·.isEmpty)

def alignLines : List (List Char) → List (List Char)
  | [] => []
  | l :: ls => l.dropWhile isBlank :: dedent ls

def clean (cs : List Char) : List Char :=
  unlines (trimLines (alignLines (lines (expandTabs cs))))

def summary (cs : List Char) : List Char := firstLine (clean cs)

end CallFlow.Text
