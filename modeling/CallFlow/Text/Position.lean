/-!
Places in a text.
-/
namespace CallFlow.Text

/--
A place in a text: how many bytes of its UTF-8 form stand before it, how many line feeds, and how many bytes
since the last of these.
-/
structure Position where
  byte : Nat := 0
  row : Nat := 0
  column : Nat := 0
deriving DecidableEq, Repr, Inhabited

/--
A place together with the number of characters before it.
-/
structure Place extends Position where
  index : Nat := 0
deriving DecidableEq, Repr, Inhabited

def Place.past (p : Place) (c : Char) : Place :=
  let size := c.utf8Size
  { index := p.index + 1
    byte := p.byte + size
    row := if c == '\n' then p.row + 1 else p.row
    column := if c == '\n' then 0 else p.column + size }

end CallFlow.Text
