import Lineup.Binary64.Rounding

/-!
# Decimal fractions

A decimal is a natural number times a power of ten. Rounding one to double precision is exact
arithmetic on natural numbers; decimals far outside the range of double precision are cut off
first, so that their powers of ten are never computed.
-/

namespace Lineup

structure Decimal where
  significand : Nat
  exponent : Int
deriving DecidableEq

namespace Decimal

/-- The decimal with the given digits before and after its point, times a power of ten. -/
def ofDigits (whole fraction : List Char) (exponent : Int) : Decimal :=
  ⟨Nat.ofDigitChars 10 (whole ++ fraction) 0, exponent - fraction.length⟩

/-- A decimal as a quotient of natural numbers. -/
def num (d : Decimal) : Nat := d.significand * Nat.pow 10 d.exponent.toNat

def den (d : Decimal) : Nat := Nat.pow 10 (-d.exponent).toNat

/-- Whether a decimal is at least `10 ^ 400` and so above every finite number. -/
def tooLarge (d : Decimal) : Bool := d.significand ≠ 0 && 400 ≤ d.exponent

/-- Whether a decimal is below `2 ^ -1076` and so nearest to zero. As eight is less than ten, the
significand has to have three bits for each place after the point to make up for it. -/
def tooSmall (d : Decimal) : Bool :=
  (d.significand.log2 : Int) + 1 + 1076 ≤ -3 * d.exponent

/-- The magnitude of double precision that is nearest to a decimal. -/
def magnitude (d : Decimal) : Nat :=
  if d.significand = 0 || d.tooSmall then 0
  else if d.tooLarge then Binary64.infinity
  else Binary64.nearest (d.num * Binary64.unitsOfOne) d.den

end Decimal

/-- The number nearest to a decimal with a sign. -/
def Binary64.ofDecimal (negative : Bool) (d : Decimal) : Binary64 :=
  .ofParts negative d.magnitude

end Lineup
