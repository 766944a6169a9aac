/-!
Tabs as blanks.
-/
namespace CallFlow.Text

def tabSize : Nat := 8

def expandTabsFrom : Nat → List Char → List Char
  | _, [] => []
  | column, c :: cs =>
    if c = '\t' then
      let width := tabSize - column % tabSize
      List.replicate width ' ' ++ expandTabsFrom (column + width) cs
    else if c = '\n' ∨ c = '\r' then c :: expandTabsFrom 0 cs
    else c :: expandTabsFrom (column + 1) cs

/--
Every tab becomes the blanks that reach to the next tab stop. A line feed or a carriage return starts a new
line.
-/
def expandTabs (cs : List Char) : List Char := expandTabsFrom 0 cs

end CallFlow.Text
