import Clearance.Double.Basic

/-!
# The shortest decimal of a double

Every double is read back from infinitely many decimals: those in the interval of
numbers that round to it. `shortest` finds the one with the fewest digits, of two with
equally many the nearer, and of two equally near the greater. It tries one, two, …
seventeen digits and looks, for each count, at the two points of that decimal grid
around the exact value; if the interval holds any point of the grid, it holds one of
these two.
-/

namespace Clearance.Double

/-- The numbers that round to a double, as multiples of one unit: `low` and
`high` are the ends, `exact` is the double itself, and the ends belong to the
interval if `closed`. -/
structure Interval where
  low : Nat
  exact : Nat
  high : Nat
  closed : Bool

namespace Interval

/-- Whether the interval holds the number `x`, in the same unit. -/
def holds (i : Interval) (x : Nat) : Bool :=
  if i.closed then decide (i.low ≤ x) && decide (x ≤ i.high)
  else decide (i.low < x) && decide (x < i.high)

end Interval

/-- The interval of a finite double other than zero, in units of a quarter of its
last place. Below a power of two the doubles are twice as dense, so there the lower
end is nearer. -/
def interval (d : Double) : Interval :=
  let m := d.magnitude.1
  { low := if d.fractionBits = 0 ∧ 1 < d.exponentBits then 4 * m - 1 else 4 * m - 2
    exact := 4 * m
    high := 4 * m + 2
    closed := m % 2 == 0 }

/-- A decimal number `digits · 10^exponent`. -/
structure Decimal where
  digits : Nat
  exponent : Int

/-- The same number without trailing zeros, of which at most `fuel` are taken away. -/
def Decimal.strip : Nat → Decimal → Decimal
  | 0, x => x
  | fuel + 1, x =>
      if x.digits ≠ 0 ∧ x.digits % 10 = 0 then
        strip fuel ⟨x.digits / 10, x.exponent + 1⟩
      else x

/-- The least `e` such that `num / den < 10^e`, found by counting up from `guess`. -/
def decimalTop (num den : Nat) : Nat → Int → Int
  | 0, guess => guess
  | fuel + 1, guess =>
      if num * tenPow (-guess) < den * tenPow guess then guess
      else decimalTop num den fuel (guess + 1)

/-- The point of the grid of multiples of `10^k` that stands for the interval `i`,
whose unit is `2^u`: the nearer of the two around its exact value that the
interval holds. -/
def gridPoint (i : Interval) (u k : Int) : Option Decimal :=
  let a := twoPow u * tenPow (-k)
  let b := twoPow (-u) * tenPow k
  let i' : Interval := ⟨i.low * a, i.exact * a, i.high * a, i.closed⟩
  let d := i'.exact / b
  let below := i'.holds (d * b)
  let above := i'.holds ((d + 1) * b)
  if above && (!below || decide (b ≤ 2 * (i'.exact - d * b))) then some ⟨d + 1, k⟩
  else if below then some ⟨d, k⟩
  else none

/-- The first grid that has a point for the interval, of those with `n`, `n + 1`,
… digits. -/
def firstGrid (i : Interval) (u top : Int) : Nat → Nat → Decimal
  | 0, n => ⟨i.exact, top - n⟩
  | fuel + 1, n =>
      match gridPoint i u (top - n) with
      | some x => x
      | none => firstGrid i u top fuel (n + 1)

/-- The shortest decimal that is read back as the absolute value of a finite double. -/
def shortest (d : Double) : Decimal :=
  let m := d.magnitude.1
  let q := d.magnitude.2
  if m = 0 then ⟨0, 0⟩
  else
    let guess : Int := ((m.log2 : Int) + q) * 30103 / 100000
    let top := decimalTop (m * twoPow q) (twoPow (-q)) 4 guess
    (firstGrid d.interval (q - 2) top 17 1).strip 20

end Clearance.Double
