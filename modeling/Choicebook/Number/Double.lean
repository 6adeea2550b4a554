/-!
# Double-precision numbers

A `Double` is a signed multiple of a power of two with a 53-bit mantissa, an infinity, or not a
number. Everything is exact integer arithmetic: `Double.ofRatio` rounds a quotient to the nearest
double, a tie to the even mantissa, and comparison with another double or with an integer of any
size loses nothing.

A finite double is kept in canonical form, with `2 ^ 52 ≤ mantissa` unless the exponent is the least
one, so two finite doubles of one sign are the same number only if they are the same value.
-/

namespace Choicebook

/-- A double-precision number: `± mantissa * 2 ^ exponent`, an infinity, or not a number. -/
inductive Double where
  | finite (negative : Bool) (mantissa : Nat) (exponent : Int)
  | infinite (negative : Bool)
  | nan
  deriving DecidableEq, Repr, Inhabited

namespace Double

/-- The least exponent: it belongs to zero and to the numbers with fewer than 53 bits. -/
def minExponent : Int := -1074

/-- The greatest exponent of a finite number. -/
def maxExponent : Int := 971

/-- Zero with a sign. -/
def zero (negative : Bool) : Double := .finite negative 0 minExponent

/-- The integer nearest to `num / den`; a tie goes to the even one. -/
def roundDiv (num den : Nat) : Nat :=
  let q := num / den
  let r := num % den
  if 2 * r < den then q
  else if den < 2 * r then q + 1
  else if q % 2 = 0 then q else q + 1

/-- `base ^ e`, or 1 if the exponent is negative. So `scale b e / scale b (-e)` is `b ^ e` for every
exponent. -/
def scale (base : Nat) (e : Int) : Nat := Nat.pow base e.toNat

/-- `num / den` divided by `2 ^ e` and rounded. -/
def scaledRound (num den : Nat) (e : Int) : Nat :=
  roundDiv (num * scale 2 (-e)) (den * scale 2 e)

/-- Whether `2 ^ k ≤ num / den`. -/
def powerLe (num den : Nat) (k : Int) : Bool :=
  den * scale 2 k ≤ num * scale 2 (-k)

/-- The greatest `k` with `2 ^ k ≤ num / den`, for a positive quotient. -/
def binaryLog (num den : Nat) : Int :=
  let k : Int := (num.log2 : Int) - (den.log2 : Int)
  if powerLe num den k then k else k - 1

/-- The double nearest to `± num / den`; a tie goes to the even mantissa, and what is beyond the
greatest double is infinite. -/
def ofRatio (negative : Bool) (num den : Nat) : Double :=
  if num = 0 then zero negative
  else
    let e := max (binaryLog num den - 52) minExponent
    let m := scaledRound num den e
    let (m, e) := if m = scale 2 53 then (scale 2 52, e + 1) else (m, e)
    if maxExponent < e then .infinite negative else .finite negative m e

/-- The double nearest to `± num * 2 ^ e / den`. -/
def ofScaled (negative : Bool) (num den : Nat) (e : Int) : Double :=
  ofRatio negative (num * scale 2 e) (den * scale 2 (-e))

/-- The double nearest to an integer, which may be infinite. -/
def ofInt (n : Int) : Double :=
  ofRatio (n < 0) n.natAbs 1

/-- The double nearest to an integer, unless that is infinite. -/
def ofInt? (n : Int) : Option Double :=
  match ofInt n with
  | .finite s m e => some (.finite s m e)
  | _ => none

/-- The numerator of a finite double over the scale `2 ^ exponent`. -/
def signed (negative : Bool) (mantissa : Nat) : Int :=
  if negative then -(mantissa : Int) else mantissa

/-- Compares `a * 2 ^ e` with `b * 2 ^ f`. -/
def compareScaled (a : Int) (e : Int) (b : Int) (f : Int) : Ordering :=
  compare (a * scale 2 (e - f)) (b * scale 2 (f - e))

/-- How two doubles compare as numbers; not a number compares with nothing. -/
def compare? : Double → Double → Option Ordering
  | .nan, _ => none
  | _, .nan => none
  | .infinite s, .infinite t => some (if s = t then .eq else if s then .lt else .gt)
  | .infinite s, .finite .. => some (if s then .lt else .gt)
  | .finite .., .infinite t => some (if t then .gt else .lt)
  | .finite s m e, .finite t n f => some (compareScaled (signed s m) e (signed t n) f)

/-- How a double compares with an integer. -/
def compareInt? : Double → Int → Option Ordering
  | .nan, _ => none
  | .infinite s, _ => some (if s then .lt else .gt)
  | .finite s m e, n => some (compareScaled (signed s m) e n 0)

/-- Equality as numbers: zero equals negative zero, and not a number equals nothing. -/
def numEq (x y : Double) : Bool := x.compare? y = some .eq

/-- Whether the double is the integer `n`. -/
def eqInt (x : Double) (n : Int) : Bool := x.compareInt? n = some .eq

def isNan : Double → Bool
  | .nan => true
  | _ => false

/-- Whether the number is zero, of either sign. -/
def isZero : Double → Bool
  | .finite _ m _ => m = 0
  | _ => false

/-- The number without its fractional part, unless it is infinite or not a number. -/
def truncate? : Double → Option Int
  | .finite s m e => some (signed s (m * scale 2 e / scale 2 (-e)))
  | _ => none

/-- The integer that a double is, if it is one. -/
def toInt? (x : Double) : Option Int :=
  match x.truncate? with
  | some n => if x.eqInt n then some n else none
  | none => none

/-- The greater of a number and zero; not a number counts as itself. -/
def clampNegative (x : Double) : Double :=
  if x.compareInt? 0 = some .lt then zero false else x

/-- A double divided by a positive integer. -/
def divNat (x : Double) (d : Nat) : Double :=
  match x with
  | .finite s m e => ofScaled s m d e
  | other => other

/-- The sum of two finite doubles; other arguments give not a number. -/
def add : Double → Double → Double
  | .finite s m e, .finite t n f =>
    let g := min e f
    let a := signed s (m * scale 2 (e - g)) + signed t (n * scale 2 (f - g))
    if a = 0 then zero (s && t) else ofScaled (a < 0) a.natAbs 1 g
  | _, _ => .nan

/-- The product of two finite doubles; other arguments give not a number. -/
def mul : Double → Double → Double
  | .finite s m e, .finite t n f => ofScaled (s != t) (m * n) 1 (e + f)
  | _, _ => .nan

/-- The opposite number. -/
def neg : Double → Double
  | .finite s m e => .finite (!s) m e
  | .infinite s => .infinite (!s)
  | .nan => .nan

end Double

end Choicebook
