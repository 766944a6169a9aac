/-!
Escape sequences.

A backslash in a string literal and what follows it stand for another character. Sequences that
stand for nothing are kept as they are.
-/
namespace CallFlow.Text

def isOctalDigit (c : Char) : Bool := '0' ≤ c && c ≤ '7'

def isHexDigit (c : Char) : Bool :=
  c.isDigit || ('a' ≤ c && c ≤ 'f') || ('A' ≤ c && c ≤ 'F')

def digitValue (c : Char) : Nat :=
  if c.isDigit then c.toNat - '0'.toNat
  else if 'a' ≤ c then c.toNat - 'a'.toNat + 10
  else c.toNat - 'A'.toNat + 10

def numberOf (base : Nat) (digits : List Char) : Nat :=
  digits.foldl (fun n d => n * base + digitValue d) 0

/--
The character with a code point. Surrogates and numbers above `0x10FFFF` are no characters.
-/
def charOf? (n : Nat) : Option Char :=
  if h : n.isValidChar then some (Char.ofNatAux n h) else none

/--
What a backslash and one more character stand for, if that is a fixed text. A line that ends in a backslash
goes on in the next.
-/
def escapeOf? (c : Char) : Option (List Char) :=
  match c with
  | '\n' => some []
  | '\\' => some ['\\']
  | '\x27' => some ['\x27']
  | '\x22' => some ['\x22']
  | 'a' => some ['\x07']
  | 'b' => some ['\x08']
  | 'f' => some ['\x0c']
  | 'n' => some ['\n']
  | 'r' => some ['\r']
  | 't' => some ['\t']
  | 'v' => some ['\x0b']
  | _ => none

def hexWidth? (c : Char) : Option Nat :=
  match c with
  | 'x' => some 2
  | 'u' => some 4
  | 'U' => some 8
  | _ => none

def leadingDigits (isDigit : Char → Bool) (width : Nat) (cs : List Char) : List Char :=
  (cs.take width).takeWhile isDigit

def readEscape : List Char → List Char × List Char
  | [] => (['\\'], [])
  | c :: cs =>
    match escapeOf? c with
    | some out => (out, cs)
    | none =>
      if isOctalDigit c then
        let digits := c :: leadingDigits isOctalDigit 2 cs
        let out := match charOf? (numberOf 8 digits) with
          | some d => [d]
          | none => '\\' :: digits
        (out, cs.drop (digits.length - 1))
      else match hexWidth? c with
        | none => (['\\', c], cs)
        | some width =>
          let digits := leadingDigits isHexDigit width cs
          let char? := if digits.length = width then charOf? (numberOf 16 digits) else none
          let out := match char? with
            | some d => [d]
            | none => '\\' :: c :: digits
          (out, cs.drop digits.length)

theorem readEscape_length_le (cs : List Char) : (readEscape cs).2.length ≤ cs.length := by
  unfold readEscape
  split
  . simp
  . split
    . simp
    . split
      . simp; omega
      . split
        . simp
        . simp; omega

def unescape : List Char → List Char
  | [] => []
  | c :: cs =>
    if c = '\\' then (readEscape cs).1 ++ unescape (readEscape cs).2
    else c :: unescape cs
termination_by cs => cs.length
decreasing_by
  . have := readEscape_length_le cs
    simp; omega
  . simp

end CallFlow.Text
