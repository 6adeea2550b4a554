import Choicebook.Calendar
import Choicebook.Fault
import Choicebook.Json.Reader
import Choicebook.Text.Case
import Choicebook.Text.Search
import Choicebook.Yaml.Token

/-!
# YAML scalars

A scalar is a text with a tag, and the tag says how to read the text. `Tag.ofPlain` is the tag that
a plain scalar has without being given one: a text that looks like a number is a number.

The readers of tagged scalars are wider than that, because a tag may be given to any text.
-/

namespace Choicebook.Yaml

/-- The tags that have a meaning. -/
inductive Tag where
  | null
  | bool
  | int
  | float
  | text
  | binary
  | timestamp
  | sequence
  | mapping
  | set
  | orderedMapping
  | pairs
  /-- The key that stands for the entries of other mappings. -/
  | merge
  /-- The key of the value that a mapping stands for. -/
  | value
  | unknown
  deriving DecidableEq, Repr

namespace Tag

/-- What the names of all tags with a meaning begin with. -/
def standard : String := "tag:yaml.org,2002:"

/-- The names of the tags that have a meaning, after the common beginning. -/
def names : List (String × Tag) :=
  [("null", null), ("bool", bool), ("int", int), ("float", float), ("str", text),
   ("binary", binary), ("timestamp", timestamp), ("seq", sequence), ("map", mapping), ("set", set),
   ("omap", orderedMapping), ("pairs", pairs), ("merge", merge), ("value", value)]

/-- The tag with a full name. -/
def ofName (name : String) : Tag :=
  match Text.afterPiece? standard.toList name.toList with
  | some rest => (names.lookup (String.ofList rest)).getD unknown
  | none => unknown

end Tag

namespace Scalar

/-! ### Forms -/

/-- Without a leading sign. -/
def dropSign : List Char → List Char
  | '+' :: cs => cs
  | '-' :: cs => cs
  | cs => cs

/-- A digit or an underscore. -/
def isSpacedDigit (c : Char) : Bool := c.isDigit || c = '_'

/-- A digit, then digits and underscores. -/
def isSpacedNumber : List Char → Bool
  | c :: cs => c.isDigit && cs.all isSpacedDigit
  | [] => false

/-- A number below 60 with at most two digits. -/
def isSixtieth : List Char → Bool
  | [c] => c.isDigit
  | [c, d] => '0' ≤ c && c ≤ '5' && d.isDigit
  | _ => false

/-- A number in base 60: a number, and further ones below 60 behind colons. -/
def isSexagesimal (cs : List Char) : Bool :=
  match Text.splitOn [':'] cs with
  | first :: second :: more => isSpacedNumber first && (second :: more).all isSixtieth
  | _ => false

/-- The form of a whole number. -/
def looksInt (cs : List Char) : Bool :=
  match dropSign cs with
  | '0' :: 'b' :: rest => !rest.isEmpty && rest.all fun c => c = '0' || c = '1' || c = '_'
  | '0' :: 'x' :: rest => !rest.isEmpty && rest.all fun c => (Json.hexValue? c).isSome || c = '_'
  | '0' :: rest => rest.all fun c => ('0' ≤ c && c ≤ '7') || c = '_'
  | rest => isSpacedNumber rest || isSexagesimal rest

/-- Nothing, or an exponent with a sign. -/
def isExponent : List Char → Bool
  | [] => true
  | e :: sign :: ds =>
    (e = 'e' || e = 'E') && (sign = '+' || sign = '-') && !ds.isEmpty && ds.all Char.isDigit
  | _ => false

/-- The form of a decimal number: there is always a point. -/
def looksFloat (cs : List Char) : Bool :=
  let unsigned := dropSign cs
  let name := String.ofList unsigned
  let whole := unsigned.takeWhile (· ≠ '.')
  match unsigned.dropWhile (· ≠ '.') with
  | '.' :: fraction =>
    (isSpacedNumber whole && isExponent (fraction.dropWhile isSpacedDigit))
      || (isSexagesimal whole && fraction.all isSpacedDigit)
      || (cs.head? = some '.' && (fraction.headD ' ').isDigit
          && isExponent (fraction.dropWhile isSpacedDigit))
      || name = ".inf" || name = ".Inf" || name = ".INF"
      || (cs.head? = some '.' && (name = ".nan" || name = ".NaN" || name = ".NAN"))
  | _ => false

/-- The words for truth values, in small letters. -/
def boolWords : List (String × Bool) :=
  [("yes", true), ("no", false), ("true", true), ("false", false), ("on", true), ("off", false)]

/-- A word in small letters, in capitals, or with one capital in front. -/
def isWordCase (cs : List Char) : Bool :=
  let small (c : Char) : Bool := 'a' ≤ c && c ≤ 'z'
  let capital (c : Char) : Bool := 'A' ≤ c && c ≤ 'Z'
  cs.all small || cs.all capital
    || (match cs with
        | c :: rest => capital c && rest.all small
        | [] => false)

/-- The form of a truth value. -/
def looksBool (cs : List Char) : Bool :=
  isWordCase cs && (boolWords.lookup (String.ofList (cs.map Char.toLower))).isSome

/-- The form of the null value. -/
def looksNull (cs : List Char) : Bool :=
  cs = [] || cs = ['~'] || (isWordCase cs && cs.map Char.toLower = "null".toList)

/-! ### Dates and times -/

/-- A date and, if there is one, a time of day, as they are written. -/
structure Stamp where
  date : Date
  time : Option ClockTime
  deriving Repr

/-- One or two digits. -/
def shortNumber? (cs : List Char) : Option (Nat × List Char) :=
  (Calendar.digits? 2 cs).orElse fun _ => Calendar.digits? 1 cs

/-- The offset from universal time at the end. -/
def offset? (cs : List Char) : Option (Option Int) :=
  match cs with
  | [] => some none
  | _ =>
    match cs.dropWhile isWhite with
    | ['Z'] => some (some 0)
    | sign :: rest =>
      if sign = '+' ∨ sign = '-' then do
        let (h, rest) ← shortNumber? rest
        let (m, rest) ← match Calendar.mark? ':' rest with
          | some rest => Calendar.digits? 2 rest
          | none => some (0, rest)
        if rest.isEmpty then
          let distance : Int := (h * 60 + m : Nat)
          some (some (if sign = '-' then -distance else distance))
        else none
      else none
    | [] => none

/-- What may stand between a date and a time. -/
def timeMark? (cs : List Char) : Option (List Char) :=
  match cs with
  | 'T' :: rest => some rest
  | 't' :: rest => some rest
  | c :: _ => if isWhite c then some (cs.dropWhile isWhite) else none
  | [] => none

/-- The first six digits of a fraction, filled up with zeros. -/
def microseconds (ds : List Char) : Nat :=
  Json.natOf ((ds ++ List.replicate 6 '0').take 6)

/-- A time of day up to the end of the text. -/
def clockTime? (cs : List Char) : Option ClockTime := do
  let (h, cs) ← shortNumber? cs
  let cs ← Calendar.mark? ':' cs
  let (m, cs) ← Calendar.digits? 2 cs
  let cs ← Calendar.mark? ':' cs
  let (s, cs) ← Calendar.digits? 2 cs
  let (fraction, cs) := match cs with
    | '.' :: rest => (rest.takeWhile Char.isDigit, rest.dropWhile Char.isDigit)
    | _ => ([], cs)
  let o ← offset? cs
  some ⟨h, m, s, microseconds fraction, o⟩

/-- A date, and a time if more follows. -/
def stamp? (cs : List Char) : Option Stamp := do
  let (y, cs) ← Calendar.digits? 4 cs
  let cs ← Calendar.mark? '-' cs
  let (m, cs) ← shortNumber? cs
  let cs ← Calendar.mark? '-' cs
  let (d, cs) ← shortNumber? cs
  match cs with
  | [] => some ⟨⟨y, m, d⟩, none⟩
  | _ =>
    let cs ← timeMark? cs
    let t ← clockTime? cs
    some ⟨⟨y, m, d⟩, some t⟩

/-- The form of a date with two digits for month and day, or of a date with a time. -/
def looksTimestamp (cs : List Char) : Bool :=
  match stamp? cs with
  | some ⟨_, some _⟩ => true
  | some ⟨_, none⟩ => cs.length = 10
  | none => false

end Scalar

/-- The tag of a plain scalar that is given none. -/
def Tag.ofPlain (s : String) : Tag :=
  let cs := s.toList
  if Scalar.looksBool cs then .bool
  else if Scalar.looksFloat cs then .float
  else if Scalar.looksInt cs then .int
  else if s = "<<" then .merge
  else if Scalar.looksNull cs then .null
  else if Scalar.looksTimestamp cs then .timestamp
  else if s = "=" then .value
  else .text

namespace Scalar

/-! ### Reading by tag -/

/-- Why a scalar cannot be read under its tag. -/
def misused (m : Misuse) : Except Problem Value := .error (.misuse m)

/-- A truth value; any capitals will do. -/
def readBool (s : String) : Except Problem Value :=
  match boolWords.lookup (Text.lower s) with
  | some b => .ok (.bool b)
  | none => misused .missingKey

/-- The value of a digit below a base. -/
def baseDigit? (base : Nat) (c : Char) : Option Nat :=
  ((Text.digitValue c).orElse fun _ => Json.hexValue? c).filter (· < base)

/-- The mark that may stand in front of a number in a base. -/
def baseMark (base : Nat) : Char :=
  if base = 2 then 'b' else if base = 8 then 'o' else 'x'

/-- A whole number in base 2, 8 or 16, with or without the mark of the base in front. -/
def inBase? (base : Nat) (cs : List Char) : Option Int :=
  let (negative, cs) := Number.readSign (Text.strip cs)
  let digits := match cs with
    | '0' :: m :: rest => if m.toLower = baseMark base then rest else cs
    | _ => cs
  match digits.mapM (baseDigit? base) with
  | some (d :: ds) =>
    let n := (d :: ds).foldl (fun n d => base * n + d) 0
    some (if negative then -(n : Int) else n)
  | _ => none

/-- A whole number, from its digits without underscores and sign. -/
def magnitude? (cs : List Char) : Option Int :=
  match cs with
  | ['0'] => some 0
  | '0' :: 'b' :: rest => inBase? 2 rest
  | '0' :: 'x' :: rest => inBase? 16 rest
  | '0' :: _ => inBase? 8 cs
  | _ => do
    let parts ← (Text.splitOn [':'] cs).mapM fun p => Number.readInt (String.ofList p)
    some (parts.foldl (fun n d => 60 * n + d) 0)

/-- A sign and what follows it, without underscores. Nothing is left of a text
without characters. -/
def signed? (cs : List Char) : Option (Bool × List Char) :=
  match cs.filter (· ≠ '_') with
  | [] => none
  | cs => some (Number.readSign cs)

/-- A whole number. -/
def readInt (s : String) : Except Problem Value :=
  match signed? s.toList with
  | none => misused .missingIndex
  | some (_, []) => misused .missingIndex
  | some (negative, cs) =>
    match magnitude? cs with
    | some n => .ok (.int (if negative then -n else n))
    | none => misused .badValue

/-- A number in base 60 from its parts, the last one first. -/
def sexagesimal (parts : List Double) : Double :=
  (parts.foldl (fun (sum, base) d => (Double.add sum (Double.mul d (Double.ofInt base)), base * 60))
    (Double.zero false, (1 : Int))).1

/-- A decimal number. -/
def readFloat (s : String) : Except Problem Value :=
  match signed? (Text.lower s).toList with
  | none => misused .missingIndex
  | some (negative, cs) =>
    let result (x : Double) : Except Problem Value := .ok (.float (if negative then x.neg else x))
    let parts := Text.splitOn [':'] cs
    if cs = ".inf".toList then result (.infinite false)
    else if cs = ".nan".toList then .ok (.float .nan)
    else match parts.mapM fun p => Number.readDouble (String.ofList p) with
      | none => misused .badValue
      | some [x] => result x
      | some xs => result (sexagesimal xs.reverse)

/-- A date, or a date with a time. -/
def readTimestamp (s : String) : Except Problem Value :=
  match stamp? s.toList with
  | none => misused .noAttribute
  | some ⟨d, none⟩ => if d.isValid then .ok (.date d) else misused .badValue
  | some ⟨d, some t⟩ =>
    if d.isValid && t.isValid then .ok (.dateTime ⟨d, t⟩) else misused .badValue

/-- The characters of bytes written in base 64, in the order of their values. -/
def base64Digits : List Char :=
  "ABCDEFGHIJKLMNOPQRSTUVWXYZabcdefghijklmnopqrstuvwxyz0123456789+/".toList

/-- Bytes written in base 64; other characters are passed over. `place` is the place in a group of
four, `left` the bits not yet used, `pads` the number of fillers in a row. Fillers that complete a
group end the text. -/
def base64? (place left pads : Nat) : List Char → Option (List UInt8)
  | [] => if place = 0 then some [] else none
  | c :: cs =>
    if c = '=' then
      if 2 ≤ place ∧ 4 ≤ place + pads + 1 then some []
      else base64? place left (if 2 ≤ place then pads + 1 else pads) cs
    else match base64Digits.idxOf? c with
      | none => base64? place left pads cs
      | some v =>
        if place = 0 then base64? 1 v 0 cs
        else
          let bits := left * 64 + v
          let (byte, left) :=
            if place = 1 then (bits / 16, v % 16)
            else if place = 2 then (bits / 4, v % 4)
            else (bits, 0)
          (base64? ((place + 1) % 4) left 0 cs).map (UInt8.ofNat byte :: ·)

/-- Bytes in base 64. -/
def readBinary (s : String) : Except Problem Value :=
  if s.toList.any fun c => 128 ≤ c.toNat then .error .malformed
  else match base64? 0 0 0 s.toList with
    | some bytes => .ok (.bytes bytes)
    | none => .error .malformed

/-- A scalar under a tag that scalars can have. -/
def read (tag : Tag) (s : String) : Except Problem Value :=
  match tag with
  | .null => .ok .null
  | .bool => readBool s
  | .int => readInt s
  | .float => readFloat s
  | .text => .ok (.text s)
  | .binary => readBinary s
  | .timestamp => readTimestamp s
  | _ => .error .malformed

end Scalar

end Choicebook.Yaml
