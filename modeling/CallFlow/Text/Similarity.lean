/-!
How similar two texts are.

The measure counts the characters that two texts share at nearly the same place, and how many of
these are out of order. It is 1 for equal texts and 0 for texts that share nothing.
-/
namespace CallFlow.Text

/--
Marks the first unmarked occurrence of a character with an index from `lo` up to `hi`; `i` is the index of
the first of the characters given.
-/
def markFirst (c : Char) (lo hi : Nat) : Nat → List (Char × Bool) → Option (List (Char × Bool))
  | _, [] => none
  | i, (d, marked) :: ds =>
    if hi ≤ i then none
    else if lo ≤ i && c == d && !marked then some ((d, true) :: ds)
    else (markFirst c lo hi (i + 1) ds).map ((d, marked) :: ·)

/--
Pairs each character of a text in turn with the first free equal one of another, at most `range` places
away. Gives the characters with a partner, and the other text with the partners marked.
-/
def pairOff (range : Nat) : Nat → List Char → List (Char × Bool) → List Char × List (Char × Bool)
  | _, [], ds => ([], ds)
  | i, c :: cs, ds =>
    match markFirst c (i - range) (i + range + 1) 0 ds with
    | none => pairOff range (i + 1) cs ds
    | some ds =>
      let (shared, ds) := pairOff range (i + 1) cs ds
      (c :: shared, ds)

def similarity (s t : String) : Float :=
  let a := s.toList
  let b := t.toList
  if a.isEmpty && b.isEmpty then 1
  else
    let range := max a.length b.length / 2 - 1
    let (shared, marked) := pairOff range 0 a (b.map fun c => (c, false))
    let partners := (marked.filter (·.2)).map (·.1)
    let moved := ((shared.zip partners).filter fun (c, d) => c != d).length / 2
    let n := shared.length
    if n = 0 then 0
    else
      (n.toFloat / a.length.toFloat + n.toFloat / b.length.toFloat +
        (n - moved).toFloat / n.toFloat) / 3

def similarityBound : Float := 0.7

/--
The text most similar to a given one, if there is one similar enough. Of several the last counts.
-/
def mostSimilar? (s : String) (candidates : List String) : Option String :=
  (candidates.foldl (fun (best? : Option (Float × String)) c =>
    let x := similarity s c
    if x > similarityBound then
      match best? with
      | some (y, _) => if y > x then best? else some (x, c)
      | none => some (x, c)
    else best?) none).map (·.2)

end CallFlow.Text
