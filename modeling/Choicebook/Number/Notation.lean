import Choicebook.Number.Shortest

/-!
# How a double is written

A `Notation` holds the choices a format makes once the digits are known: where positional writing
ends, whether a whole number keeps its point, how wide an exponent is, and what the two infinities
and "not a number" are called. `Double.render` writes a double in a notation.

The library writes doubles in four notations: in texts (`plain`), in JSON (`json`), in YAML (`yaml`)
and, rounded to six digits, in listings (`listing`).
-/

namespace Choicebook

/-- The choices of a number format. A number is written positionally when the place of its point,
counted from in front of its first digit, lies from `leastPoint` to `greatestPoint`. -/
structure Notation where
  leastPoint : Int := -3
  greatestPoint : Int := 16
  /-- Whole numbers in positional writing end in `.0`. -/
  keepsPoint : Bool := true
  /-- A mantissa of one digit is followed by `.0` in front of an exponent. -/
  pointBeforeExponent : Bool := false
  infinity : String := "inf"
  negativeInfinity : String := "-inf"
  notANumber : String := "nan"
  /-- Round to this many digits instead of writing the fewest that read back. -/
  digitLimit : Option Nat := none

namespace Notation

/-- Doubles inside texts. -/
def plain : Notation := {}

/-- Doubles in JSON documents. -/
def json : Notation :=
  { infinity := "Infinity", negativeInfinity := "-Infinity", notANumber := "NaN" }

/-- Doubles in YAML documents. -/
def yaml : Notation :=
  { pointBeforeExponent := true, infinity := ".inf", negativeInfinity := "-.inf",
    notANumber := ".nan" }

/-- Waiting times in listings: six digits, and no point after a whole number. -/
def listing : Notation :=
  { greatestPoint := 6, keepsPoint := false, digitLimit := some 6 }

end Notation

namespace Double

/-- Drops the zeros at the end of a digit sequence, but never the last digit. -/
def dropZeros (ds : List Char) : List Char :=
  match (ds.reverse.dropWhile (· == '0')).reverse with
  | [] => ['0']
  | kept => kept

/-- An exponent with its sign and at least two digits. -/
def exponentText (x : Int) : List Char :=
  let ds := Nat.toDigits 10 x.natAbs
  (if x < 0 then '-' else '+') :: (if ds.length < 2 then '0' :: ds else ds)

/-- Writes the digits `ds`, whose point stands `point` places after their front. -/
def layOut (f : Notation) (ds : List Char) (point : Int) : List Char :=
  if f.leastPoint ≤ point ∧ point ≤ f.greatestPoint then
    if point ≤ 0 then
      '0' :: '.' :: (List.replicate (-point).toNat '0' ++ ds)
    else if ds.length ≤ point.toNat then
      ds ++ List.replicate (point.toNat - ds.length) '0'
        ++ (if f.keepsPoint then ['.', '0'] else [])
    else ds.take point.toNat ++ '.' :: ds.drop point.toNat
  else
    let fraction := ds.drop 1
    ds.take 1
      ++ (if fraction.isEmpty then (if f.pointBeforeExponent then ['.', '0'] else [])
          else '.' :: fraction)
      ++ 'e' :: exponentText (point - 1)

/-- A double in a notation. -/
def render (f : Notation) : Double → String
  | .nan => f.notANumber
  | .infinite negative => if negative then f.negativeInfinity else f.infinity
  | .finite negative m e =>
    let body :=
      if m = 0 then (if f.keepsPoint then ['0', '.', '0'] else ['0'])
      else
        let d := match f.digitLimit with
          | none => shortest m e
          | some count => roundedDigits count m e
        let ds := Nat.toDigits 10 d.digits
        layOut f (dropZeros ds) (ds.length + d.exponent)
    String.ofList (if negative then '-' :: body else body)

end Double

end Choicebook
