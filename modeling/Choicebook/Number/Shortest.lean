import Choicebook.Number.Double

/-!
# Decimal digits of a double

`Double.shortest` gives the fewest decimal digits that read back as the same double, and among those
the nearest to it. The digits are searched one grid at a time: for `1, 2, … 17` digits, the two
neighbours of the number on the grid of decimals with that many digits are read back, and the first
grid on which one of them is the same double wins.

`Double.roundedDigits` rounds to a given count of digits instead.
-/

namespace Choicebook

/-- The number `digits * 10 ^ exponent`. -/
structure DecimalDigits where
  digits : Nat
  exponent : Int
  deriving DecidableEq, Repr

namespace Double

/-- How many decimal digits `n` has. -/
def digitCount (n : Nat) : Nat := (Nat.toDigits 10 n).length

/-- The double nearest to `± digits * 10 ^ exponent`. Exponents far outside the range of doubles are
decided without computing the power. -/
def ofDecimal (negative : Bool) (digits : Nat) (exponent : Int) : Double :=
  if digits = 0 then zero negative
  else
    let point := (digitCount digits : Int) + exponent
    if 400 < point then .infinite negative
    else if point < -400 then zero negative
    else ofRatio negative (digits * scale 10 exponent) (scale 10 (-exponent))

/-- The numerator and denominator of `mantissa * 2 ^ exponent`. -/
def ratio (mantissa : Nat) (exponent : Int) : Nat × Nat :=
  (mantissa * scale 2 exponent, scale 2 (-exponent))

/-- Whether `10 ^ k ≤ num / den`. -/
def tenPowerLe (num den : Nat) (k : Int) : Bool :=
  den * scale 10 k ≤ num * scale 10 (-k)

/-- The least `k` with `num / den < 10 ^ k`, for a positive quotient: the place of the point in
front of its first digit. The first guess is a little low and is corrected upwards. -/
def decimalPoint (num den : Nat) : Int :=
  let guess := (binaryLog num den * 30103).fdiv 100000
  let ks := [guess, guess + 1, guess + 2]
  (ks.find? fun k => !tenPowerLe num den k).getD (guess + 3)

/-- `num / den` divided by `10 ^ k`, as a quotient. -/
def overTenPower (num den : Nat) (k : Int) : Nat × Nat :=
  (num * scale 10 (-k), den * scale 10 k)

/-- On the grid of step `10 ^ k`, the neighbour of `m * 2 ^ e` that reads back as it: the nearer one
if both do, and the even one if both are equally near. -/
def neighbour? (m : Nat) (e : Int) (k : Int) : Option DecimalDigits :=
  let (num, den) := ratio m e
  let (a, b) := overTenPower num den k
  let lo := a / b
  let r := a % b
  let reads (d : Nat) : Bool := ofDecimal false d k = .finite false m e
  let low := if 0 < lo && reads lo then some (DecimalDigits.mk lo k) else none
  let high := if reads (lo + 1) then some (DecimalDigits.mk (lo + 1) k) else none
  match low, high with
  | none, h => h
  | l, none => l
  | some l, some h =>
    if 2 * r < b then some l
    else if b < 2 * r then some h
    else if lo % 2 = 0 then some l else some h

/-- The fewest digits that read back as `m * 2 ^ e`. -/
def shortest (m : Nat) (e : Int) : DecimalDigits :=
  let (num, den) := ratio m e
  let point := decimalPoint num den
  let grids := (List.range 17).map fun (n : Nat) => point - (n : Int) - 1
  (grids.findSome? (neighbour? m e)).getD ⟨m, 0⟩

/-- `m * 2 ^ e` rounded to `count` digits, a tie to the even digit. -/
def roundedDigits (count : Nat) (m : Nat) (e : Int) : DecimalDigits :=
  let (num, den) := ratio m e
  let k := decimalPoint num den - count
  let (a, b) := overTenPower num den k
  ⟨roundDiv a b, k⟩

end Double

end Choicebook
