import Clearance.Double.Shortest

/-!
# Written doubles

A double is written with the digits of its shortest decimal. The plain form spells out
every place and never has an exponent. The exact form always shows that the number is
no integer literal, by a fraction or by an exponent, and takes the exponent for the
very small and the very large.
-/

namespace Clearance.Double

def digitChars (n : Nat) : List Char := Nat.toDigits 10 n

/-- The digits written positionally, with at least `places` of them after the point. -/
def positional (x : Decimal) (places : Nat) : List Char :=
  let ds := digitChars x.digits
  let whole : List Char :=
    if 0 ≤ x.exponent then ds ++ List.replicate x.exponent.toNat '0'
    else ds.take (ds.length - (-x.exponent).toNat)
  let fraction : List Char :=
    if 0 ≤ x.exponent then []
    else List.replicate ((-x.exponent).toNat - ds.length) '0' ++
      ds.drop (ds.length - (-x.exponent).toNat)
  let fraction := fraction ++ List.replicate (places - fraction.length) '0'
  (if whole.isEmpty then ['0'] else whole) ++
    (if fraction.isEmpty then [] else '.' :: fraction)

/-- The digits with one of them before the point, and the power of ten after an `e`. -/
def scientific (x : Decimal) : List Char :=
  let ds := digitChars x.digits
  let power : Int := x.exponent + (ds.length : Int) - 1
  ds.take 1 ++ (if ds.length ≤ 1 then [] else '.' :: ds.drop 1) ++
    'e' :: (toString power).toList

/-- A sign, or the name of what is no number, in front of the digits that
`write` gives. -/
def written (write : Decimal → List Char) (d : Double) : String :=
  if d.isNaN then "NaN"
  else String.ofList ((if d.isNegative then ['-'] else []) ++
    if d.isInfinite then "inf".toList else write d.shortest)

/-- Every place spelled out, and a fraction only where there is one. -/
def plainText (d : Double) : String := written (positional · 0) d

/-- Whether the exact form of a decimal has an exponent: at `10^16` and above, and
below `10^-4`. -/
def wantsExponent (x : Decimal) : Bool :=
  let top : Int := x.exponent + ((digitChars x.digits).length : Int)
  x.digits != 0 && (decide (16 < top) || decide (top < -3))

/-- A fraction of at least one place, or an exponent. -/
def exactText (d : Double) : String :=
  written (fun x => if wantsExponent x then scientific x else positional x 1) d

end Clearance.Double
