import Choicebook.Number.Shortest
import Choicebook.Text.Blank
import Choicebook.Text.Digit

/-!
# Reading numbers

A number in a text may have blanks around it (no information separators), a sign, decimal digits of
any script, and single underscores between digits. `Number.readInt` reads a whole number, which may
not be too long; `Number.readDouble` reads a decimal one, an infinity, or not a number. Both give
nothing for a text that is not a number. A whole number that is too long cannot be written either
(`Number.isWritable`).
-/

namespace Choicebook.Number

/-- The digit values of a text in which a single underscore may stand between two digits; what
follows them is returned as well. At least one digit is needed. -/
def readDigits : List Char → Option (List Nat × List Char)
  | [] => none
  | [c] => (Text.digitValue c).map fun v => ([v], [])
  | c :: d :: rest =>
    match Text.digitValue c with
    | none => none
    | some v =>
      if d = '_' then
        match readDigits rest with
        | some (ds, tail) => some (v :: ds, tail)
        | none => none
      else
        match readDigits (d :: rest) with
        | some (ds, tail) => some (v :: ds, tail)
        | none => some ([v], d :: rest)

/-- The number with the given decimal digits. -/
def ofDigits (ds : List Nat) : Nat :=
  ds.foldl (fun n d => 10 * n + d) 0

/-- A leading sign, `true` for minus, and what follows it. -/
def readSign : List Char → Bool × List Char
  | '-' :: rest => (true, rest)
  | '+' :: rest => (false, rest)
  | cs => (false, cs)

/-- A blank that may stand in front of a number or behind it. -/
def isPadding (c : Char) : Bool := Text.isBlank c && !(28 ≤ c.toNat && c.toNat ≤ 31)

/-- A text without the blanks around a number. -/
def unpadded (s : String) : List Char :=
  ((s.toList.dropWhile isPadding).reverse.dropWhile isPadding).reverse

/-- How many digits a whole number may have. -/
def digitLimit : Nat := 4300

/-- Whether a whole number has few enough digits to be written in decimal. -/
def isWritable (n : Int) : Bool := n.natAbs < Nat.pow 10 digitLimit

/-- A whole number in decimal. -/
def readInt (s : String) : Option Int :=
  let (negative, cs) := readSign (unpadded s)
  match readDigits cs with
  | some (ds, []) =>
    if ds.length ≤ digitLimit then some (if negative then -(ofDigits ds : Int) else ofDigits ds)
    else none
  | _ => none

/-- Digits that may be missing. -/
def readDigits? (cs : List Char) : List Nat × List Char :=
  (readDigits cs).getD ([], cs)

/-- The exponent part of a number: nothing, or `e` with a whole number that ends the text. -/
def readExponent : List Char → Option Int
  | [] => some 0
  | c :: rest =>
    if c = 'e' ∨ c = 'E' then
      let (negative, cs) := readSign rest
      match readDigits cs with
      | some (ds, []) => some (if negative then -(ofDigits ds : Int) else ofDigits ds)
      | _ => none
    else none

/-- A decimal number without sign: digits on at least one side of the point, then the exponent. -/
def readUnsigned (negative : Bool) (cs : List Char) : Option Double :=
  let (whole, rest) := readDigits? cs
  let (fraction, rest) := match rest with
    | '.' :: more => readDigits? more
    | _ => ([], rest)
  if whole.isEmpty && fraction.isEmpty then none
  else (readExponent rest).map fun x =>
    Double.ofDecimal negative (ofDigits (whole ++ fraction)) (x - fraction.length)

/-- A decimal number, an infinity or not a number. -/
def readDouble (s : String) : Option Double :=
  let (negative, cs) := readSign (unpadded s)
  let name := String.ofList (cs.map Char.toLower)
  if name = "inf" || name = "infinity" then some (.infinite negative)
  else if name = "nan" then some .nan
  else readUnsigned negative cs

end Choicebook.Number
