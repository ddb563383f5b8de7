import Clearance.Double.Scaling
import Clearance.Json.Basic

/-!
# Numbers in JSON

`Json.number` reads a number. Without a fraction and an exponent it is an integer, if
it fits sixty-four bits, signed or unsigned; every other number is a double, and so is
`-0`, which no integer can express.

A double is read from a significand, which is as many of the leading digits as fit
sixty-four bits, and a power of ten. The significand is rounded first, and the double
it becomes is scaled by the power, so a number with many digits need not become the
double that is nearest to it. A number beyond the greatest double is refused.
-/

namespace Clearance.Json

def isDigit (c : Char) : Bool := decide ('0' ≤ c) && decide (c ≤ '9')

def hexValue? (c : Char) : Option Nat :=
  if '0' ≤ c ∧ c ≤ '9' then some (c.toNat - 48)
  else if 'a' ≤ c ∧ c ≤ 'f' then some (c.toNat - 87)
  else if 'A' ≤ c ∧ c ≤ 'F' then some (c.toNat - 55)
  else none

/-- The number that a further decimal digit makes of `n`. -/
def withDigit (n : Nat) (c : Char) : Nat := 10 * n + (c.toNat - 48)

/-- The number written with decimal digits. -/
def decimalValue (ds : List Char) : Nat := ds.foldl withDigit 0

/-- The digits of a fraction, after the point. -/
def fraction? : List Char → Option (List Char × List Char)
  | '.' :: rest =>
      let ds := rest.takeWhile isDigit
      if ds.isEmpty then none else some (ds, rest.dropWhile isDigit)
  | s => some ([], s)

/-- The value of an exponent, if there is one, with its sign. -/
def exponent? : List Char → Option (Option Int × List Char)
  | c :: rest =>
      if c = 'e' ∨ c = 'E' then
        let (negative, rest) := match rest with
          | '+' :: rest => (false, rest)
          | '-' :: rest => (true, rest)
          | rest => (false, rest)
        let ds := rest.takeWhile isDigit
        if ds.isEmpty then none
        else
          let n : Int := decimalValue ds
          some (some (if negative then -n else n), rest.dropWhile isDigit)
      else some (none, c :: rest)
  | [] => some (none, [])

/-- Adds digits to `n` as long as the number fits a word; answers how many digits are
left over. -/
def addDigits (n : Nat) : List Char → Nat × Nat
  | [] => (n, 0)
  | c :: rest =>
      if withDigit n c ≤ maxWord then addDigits (withDigit n c) rest
      else (n, rest.length + 1)

/-- The double read from the digits before and after the point and from an exponent. A
digit before the point that the significand has no room for still counts as a place;
one after the point is ignored. -/
def double? (negative : Bool) (whole fraction : List Char)
    (exponent : Int) : Option Double := do
  let (n, left) := addDigits 0 whole
  let (n, ignored) := addDigits n fraction
  let e := (left : Int) - ((fraction.length - ignored : Nat) : Int) + exponent
  let d ← (Double.ofInt n).scaledByTen e
  some (Double.ofParts negative d.bits.toNat)

/-- The number that digits without fraction and exponent write. -/
def ofDigits? (negative : Bool) (ds : List Char) : Option Json :=
  let n : Int := if negative then -(decimalValue ds : Int) else decimalValue ds
  if fitsWord n ∧ ¬ (negative ∧ n = 0) then some (.integer n)
  else (double? negative ds [] 0).map .float

def number (s : List Char) : Option (Json × List Char) := do
  let (negative, s) := match s with
    | '-' :: rest => (true, rest)
    | s => (false, s)
  let whole := s.takeWhile isDigit
  let rest := s.dropWhile isDigit
  if whole.isEmpty ∨ (whole.head? = some '0' ∧ 1 < whole.length) then none
  else
    let (fraction, rest) ← fraction? rest
    let (exponent, rest) ← exponent? rest
    let j ←
      if fraction.isEmpty ∧ exponent.isNone then ofDigits? negative whole
      else (double? negative whole fraction (exponent.getD 0)).map .float
    some (j, rest)

end Clearance.Json
