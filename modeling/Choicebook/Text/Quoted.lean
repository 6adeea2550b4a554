import Choicebook.Text.Printable

/-!
# Quoted texts

A text inside a container is written between quotes. The quote is `'`, unless the text holds a `'`
and no `"`. A backslash, the quote itself and the three common controls get a backslash; any other
character that is not printable is written by its number, with two, four or eight hexadecimal
digits.
-/

namespace Choicebook.Text

/-- The hexadecimal digits of `n`, with zeros in front up to a width. -/
def hexPadded (width n : Nat) : List Char :=
  let ds := Nat.toDigits 16 n
  List.replicate (width - ds.length) '0' ++ ds

/-- The quote for a text that holds the given characters. -/
def quoteFor (cs : List Char) : Char :=
  if cs.contains '\'' && !cs.contains '"' then '"' else '\''

/-- A character that is not printable, by number. -/
def numbered (n : Nat) : List Char :=
  if n < 0x100 then '\\' :: 'x' :: hexPadded 2 n
  else if n < 0x10000 then '\\' :: 'u' :: hexPadded 4 n
  else '\\' :: 'U' :: hexPadded 8 n

/-- One character between the given quotes. -/
def quotedChar (quote c : Char) : List Char :=
  if c = quote ∨ c = '\\' then ['\\', c]
  else if c = '\n' then ['\\', 'n']
  else if c = '\r' then ['\\', 'r']
  else if c = '\t' then ['\\', 't']
  else if isPrintable c then [c]
  else numbered c.toNat

/-- A text between quotes. -/
def quoted (s : String) : String :=
  let q := quoteFor s.toList
  String.ofList (q :: (s.toList.flatMap (quotedChar q) ++ [q]))

/-- Bytes between quotes, after a `b`: printable ASCII as it is, other bytes by number. -/
def quotedBytes (bs : List UInt8) : String :=
  let cs := bs.map fun b => Char.ofNat b.toNat
  let q := quoteFor cs
  let body := cs.flatMap fun c => if c.toNat < 128 then quotedChar q c else numbered c.toNat
  String.ofList ('b' :: q :: (body ++ [q]))

end Choicebook.Text
