import CallFlow.Text.Mark

/-!
Quoted texts.

`quote` writes a text so that it can be told from what stands around it, and `quoteJson` writes it as
a string of JSON.
-/
namespace CallFlow.Text

def hexDigits (n : Nat) : List Char := Nat.toDigits 16 n

/--
A character within quotes. What cannot be seen, or would combine with the character before it, is written as
a number.
-/
def quoteChar (c : Char) : List Char :=
  if c = '\x22' then ['\\', '\x22']
  else if c = '\\' then ['\\', '\\']
  else if c = '\n' then ['\\', 'n']
  else if c = '\r' then ['\\', 'r']
  else if c = '\t' then ['\\', 't']
  else if c.toNat = 0 then ['\\', '0']
  else if c.toNat < 32 || (127 ≤ c.toNat && c.toNat < 160) || isMark c then
    ['\\', 'u', '\x7b'] ++ hexDigits c.toNat ++ ['\x7d']
  else [c]

def quote (s : String) : String :=
  String.ofList ('\x22' :: s.toList.flatMap quoteChar ++ ['\x22'])

def quoteJsonChar (c : Char) : List Char :=
  if c = '\x22' then ['\\', '\x22']
  else if c = '\\' then ['\\', '\\']
  else if c.toNat < 32 then
    let digits := hexDigits c.toNat
    ['\\', 'u'] ++ List.replicate (4 - digits.length) '0' ++ digits
  else [c]

def quoteJson (s : String) : String :=
  String.ofList ('\x22' :: s.toList.flatMap quoteJsonChar ++ ['\x22'])

end CallFlow.Text
