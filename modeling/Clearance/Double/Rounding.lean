import Clearance.Double.Basic

/-!
# The nearest double

`ofDecimal` gives the double nearest to a decimal number, a tie going to the even
neighbour, and infinity beyond the greatest one. The arithmetic is exact: the number is
a quotient of naturals, and the binary exponent is the one at which the quotient has
fifty-three digits, or the least exponent there is.
-/

namespace Clearance.Double

/-- The natural number nearest to `num / den`, a tie going to the even one. -/
def roundHalfEven (num den : Nat) : Nat :=
  let low := num / den
  let twice := 2 * (num % den)
  if twice < den then low
  else if twice > den then low + 1
  else if low % 2 = 0 then low else low + 1

/-- `num / den · 2^(-q)`, rounded to a natural number. -/
def scaled (num den : Nat) (q : Int) : Nat :=
  roundHalfEven (num * twoPow (-q)) (den * twoPow q)

/-- Whether `num / den` is at least `2^k`. -/
def atLeastPow (num den : Nat) (k : Int) : Bool :=
  decide (den * twoPow k ≤ num * twoPow (-k))

/-- The binary exponent of the last place of a double near `num / den`. -/
def lastPlace (num den : Nat) : Int :=
  let guess : Int := (num.log2 : Int) - (den.log2 : Int)
  let top := if atLeastPow num den guess then guess else guess - 1
  max (top - 52) (-1074)

/-- The bits below the sign of the double nearest to `num / den`. -/
def nearestBits (num den : Nat) : Nat :=
  let q := lastPlace num den
  let m := scaled num den q
  if q > 971 then 2047 * exponentPlace
  else if m < exponentPlace then m
  else min ((q + 1074).toNat * exponentPlace + m) (2047 * exponentPlace)

/-- The double nearest to `± num / den`. -/
def ofRatio (negative : Bool) (num den : Nat) : Double :=
  ofParts negative (nearestBits num den)

def decimalLength (n : Nat) : Nat := if n = 0 then 0 else (Nat.toDigits 10 n).length

/-- The double nearest to `± n · 10^e`. Numbers far outside the range are settled by
their number of digits, so that no large power is computed for them. -/
def ofDecimal (negative : Bool) (n : Nat) (e : Int) : Double :=
  let size := (decimalLength n : Int) + e
  if n = 0 ∨ size < -330 then zero negative
  else if size > 310 then infinity negative
  else ofRatio negative (n * tenPow e) (tenPow (-e))

def ofInt (n : Int) : Double := ofDecimal (decide (n < 0)) n.natAbs 0

end Clearance.Double
