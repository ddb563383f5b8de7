import Clearance.Double.Rounding

/-!
# Doubles times powers of ten

`scaledByTen` multiplies a double by a power of ten the way a machine does: the power
itself is a double, and so is each product, so the result can be a neighbour of the
double that is nearest to the exact product. What no single power covers is divided by
the greatest one first, as often as needed.
-/

namespace Clearance.Double

/-- The absolute value of a finite double, as a quotient of naturals. -/
def ratio (d : Double) : Nat × Nat :=
  let (m, q) := d.magnitude
  (m * twoPow q, twoPow (-q))

/-- The product of the absolute values of two finite doubles. -/
def times (a b : Double) : Double :=
  ofRatio false (a.ratio.1 * b.ratio.1) (a.ratio.2 * b.ratio.2)

/-- The quotient of the absolute values of two finite doubles, of which the second is
not zero. -/
def dividedBy (a b : Double) : Double :=
  ofRatio false (a.ratio.1 * b.ratio.2) (a.ratio.2 * b.ratio.1)

/-- The exponent of the greatest power of ten among the doubles. -/
def maxTenExponent : Nat := 308

def powerOfTen (k : Nat) : Double := ofDecimal false 1 k

/-- `x · 10^(-k)`. Each round takes the greatest power away; after three of them
nothing is left of any double, so there `fuel` need not be greater. -/
def scaledDown : Nat → Double → Nat → Double
  | 0, _, _ => zero false
  | fuel + 1, x, k =>
      if k ≤ maxTenExponent then x.dividedBy (powerOfTen k)
      else scaledDown fuel (x.dividedBy (powerOfTen maxTenExponent))
        (k - maxTenExponent)

/-- `x · 10^e` for a finite `x` that is not negative, unless that is beyond the
greatest double. -/
def scaledByTen (x : Double) (e : Int) : Option Double :=
  if e < 0 then some (scaledDown 3 x e.natAbs)
  else if e.toNat ≤ maxTenExponent then
    let y := x.times (powerOfTen e.toNat)
    if y.isInfinite then none else some y
  else if x = zero false then some x
  else none

end Clearance.Double
