import CallFlow.Syntax.Node
import CallFlow.Text.Escape
import CallFlow.Text.Indent
import CallFlow.Text.Slice

/-!
Docstrings.

The docstring of a function is the string that is the first statement of its body. It may consist of
several literals; none of them may hold bytes or interpolations.
-/
namespace CallFlow.Functions

open CallFlow.Syntax CallFlow.Text

def literalPrefix (opening : List Char) : List Char :=
  (opening.takeWhile fun c => c != '\x22' && c != '\x27').map Char.toLower

def lastChild? (n : Node) (kind : String) : Option Node :=
  (n.children.filter (·.kind == kind)).getLast?

def textBetween (n opening closing : Node) : List Char :=
  (slice? (opening.stop.byte - n.start.byte) (closing.start.byte - n.start.byte)
    n.text.toList).getD []

def decodeBody (raw : Bool) (body : List Char) : List Char :=
  let body := normalizeLineEnds body
  if raw then body else unescape body

/--
The text that a string literal stands for, unless it holds bytes or interpolations.
-/
def literal? (n : Node) : Option (List Char) :=
  if n.children.any (·.kind == "interpolation") then none
  else
    match lastChild? n "string_start", lastChild? n "string_end" with
    | some opening, some closing =>
      let letters := literalPrefix opening.text.toList
      if letters.contains 'b' || letters.contains 'f' then none
      else some (decodeBody (letters.contains 'r') (textBetween n opening closing))
    | _, _ => none

def string? (n : Node) : Option (List Char) :=
  if n.kind = "string" then literal? n
  else if n.kind = "concatenated_string" then
    ((n.namedChildren.filter (·.kind == "string")).mapM literal?).map List.flatten
  else none

def docstring? (body : Node) : Option (List Char) :=
  match body.namedChildren.find? (·.kind != "comment") with
  | none => none
  | some statement =>
    if statement.kind = "expression_statement" then
      match statement.namedChildren with
      | [expression] => string? expression
      | _ => none
    else none

def docSummary (body : Node) : String :=
  match docstring? body with
  | none => ""
  | some text => String.ofList (summary text)

end CallFlow.Functions
