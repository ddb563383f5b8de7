/-!
# Double-precision numbers

A double is its 64 bits, so two doubles are the same exactly when their bits are: a NaN
is itself, and the two zeros differ. All doubles are in one order, in which no two
share a place (`rank`). `magnitude` reads a finite double as `m · 2^q`, which is what
the modules on rounding and on digits compute with.
-/

namespace Clearance

/-- A binary64 number, told apart by its bits. -/
@[ext]
structure Double where
  /-- Sign, eleven bits of exponent, fifty-two bits of fraction. -/
  bits : UInt64
deriving DecidableEq

namespace Double

/-- The place value of the sign bit, `2^63`. -/
def signPlace : Nat := 0x8000000000000000

/-- The place value of the lowest bit of the exponent, `2^52`. -/
def exponentPlace : Nat := 0x10000000000000

def isNegative (d : Double) : Bool := decide (signPlace ≤ d.bits.toNat)

/-- The place of a double in the order of them all: the negative ones come first, those
with the greatest bits in front, and the negative zero is the last of them. -/
def rank (d : Double) : Int :=
  if d.isNegative then (signPlace : Int) - 1 - d.bits.toNat else d.bits.toNat

/-- The order of all doubles, in which each zero and each NaN has a place of
its own. -/
instance : Ord Double := ⟨fun a b => compare a.rank b.rank⟩

theorem isNegative_iff {d : Double} : d.isNegative = true ↔ signPlace ≤ d.bits.toNat :=
  decide_eq_true_iff

theorem eq_of_rank_eq {a b : Double} (h : a.rank = b.rank) : a = b := by
  refine Double.ext (UInt64.toNat_inj.mp ?_)
  simp only [rank, isNegative_iff] at h
  -- a negative double has a negative place, and no other has
  split at h
  · split at h <;> omega
  · split at h <;> omega

instance : Std.LawfulEqOrd Double where
  compare_self := Std.compare_self (α := Int)
  eq_of_compare h := eq_of_rank_eq (Std.compare_eq_iff_eq.mp h)

def exponentBits (d : Double) : Nat := d.bits.toNat / exponentPlace % 2048

def fractionBits (d : Double) : Nat := d.bits.toNat % exponentPlace

def isNaN (d : Double) : Bool := d.exponentBits == 2047 && d.fractionBits != 0

def isInfinite (d : Double) : Bool := d.exponentBits == 2047 && d.fractionBits == 0

/-- `(m, q)` such that a finite double has the absolute value `m · 2^q`. -/
def magnitude (d : Double) : Nat × Int :=
  if d.exponentBits = 0 then (d.fractionBits, -1074)
  else (d.fractionBits + exponentPlace, (d.exponentBits : Int) - 1075)

/-- The double with the given sign and the given remaining bits. -/
def ofParts (negative : Bool) (rest : Nat) : Double :=
  ⟨UInt64.ofNat ((if negative then signPlace else 0) + rest)⟩

def infinity (negative : Bool) : Double := ofParts negative (2047 * exponentPlace)

def zero (negative : Bool) : Double := ofParts negative 0

/-- The quiet NaN without a payload. -/
def nan : Double := ofParts false (2047 * exponentPlace + exponentPlace / 2)

/-- `2^k`, and one where `k` is negative. -/
def twoPow (k : Int) : Nat := Nat.pow 2 k.toNat

/-- `10^k`, and one where `k` is negative. -/
def tenPow (k : Int) : Nat := Nat.pow 10 k.toNat

end Double

end Clearance
