import Choicebook.Number.Reading
import Choicebook.Value.Equality

/-!
# Reading JSON

`Json.read` reads a whole text as one JSON value. Beyond the grammar it accepts the three names
`NaN`, `Infinity` and `-Infinity`; it refuses a byte-order mark, control characters in texts, and
anything after the value but blanks. Of several entries with one key the last value counts, at the
place of the first.

The reading goes from left to right, and what it meets first decides whether a text is refused as
malformed or because of a whole number that is too long.

The readers take the number of steps they may still make; `read` gives them more than the text has
characters, and every step uses up a character.
-/

namespace Choicebook.Json

/-- Why a text cannot be read. -/
inductive Problem where
  | malformed
  /-- A whole number has too many digits. -/
  | tooLong
  deriving DecidableEq, Repr

/-- The blanks that may stand between the parts of a JSON text. -/
def isSpace (c : Char) : Bool := c = ' ' || c = '\t' || c = '\n' || c = '\r'

/-- Drops the blanks at the front. -/
def skip (cs : List Char) : List Char := cs.dropWhile isSpace

/-- The value of a hexadecimal digit. -/
def hexValue? (c : Char) : Option Nat :=
  if '0' ≤ c ∧ c ≤ '9' then some (c.toNat - 48)
  else if 'a' ≤ c ∧ c ≤ 'f' then some (c.toNat - 87)
  else if 'A' ≤ c ∧ c ≤ 'F' then some (c.toNat - 55)
  else none

/-- A number of four hexadecimal digits. -/
def hex4? : List Char → Option (Nat × List Char)
  | a :: b :: c :: d :: rest => do
    let a ← hexValue? a
    let b ← hexValue? b
    let c ← hexValue? c
    let d ← hexValue? d
    some (((a * 16 + b) * 16 + c) * 16 + d, rest)
  | _ => none

/-- The first half of a character written as two numbers. -/
def isHighHalf (n : Nat) : Bool := 0xD800 ≤ n && n < 0xDC00

/-- The second half of a character written as two numbers. -/
def isLowHalf (n : Nat) : Bool := 0xDC00 ≤ n && n < 0xE000

/-- The character with a number; half a character becomes the replacement character. -/
def charOf (n : Nat) : Char :=
  if isHighHalf n || isLowHalf n then Char.ofNat 0xFFFD else Char.ofNat n

/-- The character with the given halves. -/
def joinHalves (high low : Nat) : Char :=
  Char.ofNat (0x10000 + (high - 0xD800) * 1024 + (low - 0xDC00))

/-- A character written by number, after the `u`: two halves in a row make one character. -/
def numbered? (cs : List Char) : Option (Char × List Char) :=
  match hex4? cs with
  | none => none
  | some (n, rest) =>
    match rest with
    | '\\' :: 'u' :: more =>
      if isHighHalf n then
        match hex4? more with
        | some (m, tail) =>
          if isLowHalf m then some (joinHalves n m, tail) else some (charOf n, rest)
        | none => some (charOf n, rest)
      else some (charOf n, rest)
    | _ => some (charOf n, rest)

/-- The character that a one-letter escape stands for. -/
def escaped? : Char → Option Char
  | '"' => some '"'
  | '\\' => some '\\'
  | '/' => some '/'
  | 'b' => some '\x08'
  | 'f' => some '\x0c'
  | 'n' => some '\n'
  | 'r' => some '\r'
  | 't' => some '\t'
  | _ => none

/-- The rest of a text after its opening quote; `acc` holds in reverse what has been read. -/
def readText : (fuel : Nat) → (acc : List Char) → List Char → Option (String × List Char)
  | 0, _, _ => none
  | _, _, [] => none
  | fuel + 1, acc, c :: cs =>
    if c = '"' then some (String.ofList acc.reverse, cs)
    else if c = '\\' then
      match cs with
      | [] => none
      | e :: rest =>
        if e = 'u' then
          match numbered? rest with
          | some (d, tail) => readText fuel (d :: acc) tail
          | none => none
        else match escaped? e with
          | some d => readText fuel (d :: acc) rest
          | none => none
    else if c.toNat < 32 then none
    else readText fuel (c :: acc) cs

/-- The ASCII digits at the front. -/
def digitRun (cs : List Char) : List Char × List Char :=
  (cs.takeWhile Char.isDigit, cs.dropWhile Char.isDigit)

/-- The number with the given ASCII digits. -/
def natOf (ds : List Char) : Nat :=
  Number.ofDigits (ds.map fun c => c.toNat - 48)

/-- The digits after a point, if a point with digits follows. -/
def readFraction (cs : List Char) : List Char × List Char :=
  match cs with
  | '.' :: rest =>
    match digitRun rest with
    | ([], _) => ([], cs)
    | (ds, tail) => (ds, tail)
  | _ => ([], cs)

/-- The exponent, if a complete one follows. -/
def readExponent (cs : List Char) : Option Int × List Char :=
  match cs with
  | c :: rest =>
    if c = 'e' ∨ c = 'E' then
      let (negative, digits) := Number.readSign rest
      match digitRun digits with
      | ([], _) => (none, cs)
      | (ds, tail) => (some (if negative then -(natOf ds : Int) else natOf ds), tail)
    else (none, cs)
  | [] => (none, cs)

/-- A number without its sign. -/
def readNumber (negative : Bool) (cs : List Char) : Except Problem (Value × List Char) :=
  match cs with
  | [] => .error .malformed
  | c :: rest =>
    if !c.isDigit then .error .malformed
    else
      let (whole, rest) := if c = '0' then (['0'], rest) else digitRun cs
      let (fraction, rest) := readFraction rest
      let (exponent, rest) := readExponent rest
      if fraction.isEmpty && exponent.isNone then
        if Number.digitLimit < whole.length then .error .tooLong
        else .ok (.int (if negative then -(natOf whole : Int) else natOf whole), rest)
      else
        let x := exponent.getD 0 - fraction.length
        .ok (.float (Double.ofDecimal negative (natOf (whole ++ fraction)) x), rest)

/-- The names that stand for a value. -/
def names : List (List Char × Value) :=
  [("null".toList, .null), ("true".toList, .bool true), ("false".toList, .bool false),
   ("NaN".toList, .float .nan), ("Infinity".toList, .float (.infinite false)),
   ("-Infinity".toList, .float (.infinite true))]

/-- What follows `name`, if `name` stands at the front. -/
def afterName? : (name cs : List Char) → Option (List Char)
  | [], cs => some cs
  | n :: ns, c :: cs => if n = c then afterName? ns cs else none
  | _ :: _, [] => none

/-- A name or a number. -/
def readScalar (cs : List Char) : Except Problem (Value × List Char) :=
  match names.findSome? fun (name, v) => (afterName? name cs).map fun rest => (v, rest) with
  | some r => .ok r
  | none =>
    match cs with
    | '-' :: rest => readNumber true rest
    | _ => readNumber false cs

/-- What has been read, if it is there. -/
def found {α : Type} (x : Option α) : Except Problem α :=
  match x with
  | some a => .ok a
  | none => .error .malformed

mutual

/-- One value at the front of the text. -/
def readValue : (fuel : Nat) → List Char → Except Problem (Value × List Char)
  | 0, _ => .error .malformed
  | fuel + 1, cs =>
    match cs with
    | '"' :: rest => (found (readText (rest.length + 1) [] rest)).map fun r => (.text r.1, r.2)
    | '[' :: rest =>
      match skip rest with
      | ']' :: tail => .ok (.list [], tail)
      | items => (readItems fuel items).map fun r => (.list r.1, r.2)
    | '{' :: rest =>
      match skip rest with
      | '}' :: tail => .ok (.map [], tail)
      | entries => (readEntries fuel entries).map fun r => (.map (Entries.ofPairs r.1), r.2)
    | _ => readScalar cs

/-- The items of a list up to and with its closing bracket. -/
def readItems : (fuel : Nat) → List Char → Except Problem (List Value × List Char)
  | 0, _ => .error .malformed
  | fuel + 1, cs =>
    match readValue fuel cs with
    | .error e => .error e
    | .ok (v, rest) =>
      match skip rest with
      | ']' :: tail => .ok ([v], tail)
      | ',' :: more =>
        match readItems fuel (skip more) with
        | .ok (vs, tail) => .ok (v :: vs, tail)
        | .error e => .error e
      | _ => .error .malformed

/-- The entries of a mapping up to and with its closing brace. -/
def readEntries : (fuel : Nat) → List Char → Except Problem (List (Value × Value) × List Char)
  | 0, _ => .error .malformed
  | fuel + 1, cs =>
    match cs with
    | '"' :: afterQuote =>
      match readText (afterQuote.length + 1) [] afterQuote with
      | none => .error .malformed
      | some (key, afterKey) =>
        match skip afterKey with
        | ':' :: afterColon =>
          match readValue fuel (skip afterColon) with
          | .error e => .error e
          | .ok (v, rest) =>
            match skip rest with
            | '}' :: tail => .ok ([(.text key, v)], tail)
            | ',' :: more =>
              match readEntries fuel (skip more) with
              | .ok (es, tail) => .ok ((.text key, v) :: es, tail)
              | .error e => .error e
            | _ => .error .malformed
        | _ => .error .malformed
    | _ => .error .malformed

end

/-- Reads a whole text as one value. -/
def read (s : String) : Except Problem Value :=
  match readValue (s.toList.length + 2) (skip s.toList) with
  | .ok (v, rest) => if (skip rest).isEmpty then .ok v else .error .malformed
  | .error e => .error e

end Choicebook.Json
