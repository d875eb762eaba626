import Lineup.Binary64.Decimal

/-!
# The shortest decimal that reads back

Of the decimals that round to a given magnitude, `shortest` takes one with the fewest digits, and
of those the one nearest to the value. It goes from coarse powers of ten to finer ones and looks
at the two multiples of each between which the value lies.
-/

namespace Lineup.Binary64

/-- Where to go from halfway between two shortest decimals. -/
inductive Tie where
  | up
  | even
deriving DecidableEq

/-- The exact value of a finite magnitude. -/
def exactDecimal (m : Nat) : Decimal := ⟨units m * Nat.pow 5 1074, -1074⟩

/-- The value of a magnitude in multiples of `10 ^ p`, as a quotient. -/
def scaled (m : Nat) (p : Int) : Nat × Nat :=
  (units m * Nat.pow 10 (-p).toNat, unitsOfOne * Nat.pow 10 p.toNat)

/-- The multiple of `10 ^ p` that reads back as `m`: of two that do the nearer one. -/
def onGrid (tie : Tie) (m : Nat) (p : Int) : Option Decimal :=
  let (num, den) := scaled m p
  let below : Decimal := ⟨num / den, p⟩
  let above : Decimal := ⟨num / den + 1, p⟩
  match decide (below.magnitude = m), decide (above.magnitude = m) with
  | false, false => none
  | true, false => some below
  | false, true => some above
  | true, true =>
    match compare (2 * (num % den)) den with
    | .lt => some below
    | .gt => some above
    | .eq => if tie = .even ∧ num / den % 2 = 0 then some below else some above

/-- The first hit on the grids of `10 ^ p`, `10 ^ (p - 1)` and so on, or the exact value. -/
def firstOnGrid (tie : Tie) (m : Nat) : Nat → Int → Decimal
  | 0, _ => exactDecimal m
  | grids + 1, p => (onGrid tie m p).getD (firstOnGrid tie m grids (p - 1))

/-- A power of ten above the value of a magnitude. One binary digit is less than `0.30103` decimal
ones. -/
def decimalBound (m : Nat) : Int := ((units m).log2 - 1073 : Int) * 30103 / 100000 + 1

/-- Seventeen digits always suffice, so twenty grids from a power of ten that is at most two above
the leading digit do too. -/
def shortest (tie : Tie) (m : Nat) : Decimal := firstOnGrid tie m 20 (decimalBound m)

end Lineup.Binary64
