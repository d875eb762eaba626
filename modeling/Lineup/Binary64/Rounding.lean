import Lineup.Binary64.Basic

/-!
# Rounding to double precision

The finite numbers are whole multiples of the least positive one, `2 ^ -1074`; `units` counts
them. Rounding takes a quotient of natural numbers, measured in that unit, to the magnitude that
is nearest to it. The magnitudes of one exponent are evenly spaced and the last of one exponent is
followed by the first of the next, so rounding the significand to a whole number is enough: a
carry moves on to the next exponent and at last to infinity.
-/

namespace Lineup.Binary64

/-- The value of a finite magnitude as a multiple of `2 ^ -1074`. -/
def units (m : Nat) : Nat :=
  if m < fractionCount then m
  else (fractionCount + m % fractionCount) * Nat.pow 2 (m / fractionCount - 1)

/-- The units in one. -/
def unitsOfOne : Nat := Nat.pow 2 1074

/-- The whole number nearest to a quotient, a half going to the even neighbour. -/
def roundHalfEven (num den : Nat) : Nat :=
  let half := compare (2 * (num % den)) den
  if half = .lt || (half = .eq && num / den % 2 = 0) then num / den else num / den + 1

/-- The magnitude nearest to a number of units, a half going to the even neighbour. -/
def nearest (num den : Nat) : Nat :=
  let shift := (num / den).log2 - 52
  min (shift * fractionCount + roundHalfEven num (den * Nat.pow 2 shift)) infinity

theorem nearest_le (num den : Nat) : nearest num den ≤ infinity := Nat.min_le_right _ _

/-- The number nearest to an integer. -/
def ofInt (n : Int) : Binary64 := ofParts (n < 0) (nearest (n.natAbs * unitsOfOne) 1)

end Lineup.Binary64
