import CallFlow.Text.Blank

/-!
Lines of text.

The lines of a text are the pieces between its line feeds. A text has one line more than line feeds.
-/
namespace CallFlow.Text

def pieces (sep : Char) : List Char → List (List Char)
  | [] => [[]]
  | c :: cs =>
    if c = sep then [] :: pieces sep cs
    else match pieces sep cs with
      | [] => [[c]]
      | l :: ls => (c :: l) :: ls

def lines (cs : List Char) : List (List Char) := pieces '\n' cs

def unlines (ls : List (List Char)) : List Char := ['\n'].intercalate ls

def firstLine (cs : List Char) : List Char := cs.takeWhile fun c => !isLineBoundary c

/--
Every line end becomes one line feed: a carriage return with a line feed behind it, and a carriage return
alone.
-/
def normalizeLineEnds : List Char → List Char
  | [] => []
  | '\r' :: '\n' :: cs => '\n' :: normalizeLineEnds cs
  | c :: cs => (if c = '\r' then '\n' else c) :: normalizeLineEnds cs

theorem pieces_ne_nil (sep : Char) (cs : List Char) : pieces sep cs ≠ [] := by
  cases cs with
  | nil => simp [pieces]
  | cons c cs =>
    unfold pieces
    split
    . simp
    . split <;> simp

end CallFlow.Text
