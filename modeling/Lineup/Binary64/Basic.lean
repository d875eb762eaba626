/-!
# Double-precision numbers

A number is held as its sixty-four bits: a sign bit above a magnitude, which is an exponent field
of eleven bits above a fraction of fifty-two. Magnitudes of one sign are ordered as the numbers
are, so the order of all numbers but NaN is the order of integers (`key`), in which both zeros are
`0`.
-/

namespace Lineup

structure Binary64 where
  bits : UInt64
deriving DecidableEq

namespace Binary64

/-- The value of the sign bit. -/
def signBit : Nat := 0x8000000000000000

/-- The bits below the sign. -/
def magnitude (x : Binary64) : Nat := x.bits.toNat % signBit

def negative (x : Binary64) : Bool := signBit ≤ x.bits.toNat

/-- How many fractions there are, and so how far the magnitudes of one exponent reach. -/
def fractionCount : Nat := 0x10000000000000

/-- The magnitude of the infinities. Those above it are not numbers. -/
def infinity : Nat := 0x7ff0000000000000

/-- The magnitude of the NaN that has no payload. -/
def quietNaN : Nat := 0x7ff8000000000000

def isNaN (x : Binary64) : Bool := infinity < x.magnitude

def isFinite (x : Binary64) : Bool := x.magnitude < infinity

def ofParts (negative : Bool) (magnitude : Nat) : Binary64 :=
  ⟨UInt64.ofNat (negative.toNat * signBit + magnitude)⟩

/-- The place of a number in the order; meaningless for NaN. -/
def key (x : Binary64) : Int := if x.negative then -(x.magnitude : Int) else x.magnitude

/-- The order of two numbers, `none` when one of them is NaN. -/
def compare? (x y : Binary64) : Option Ordering :=
  if x.isNaN || y.isNaN then none else some (compare x.key y.key)

/-- Whether two numbers are equal: both zeros are, and NaN is not even equal to itself. -/
def equal (x y : Binary64) : Bool := x.compare? y = some .eq

theorem magnitude_ofParts {n : Bool} {m : Nat} (h : m < signBit) : (ofParts n m).magnitude = m := by
  cases n <;> simp only [ofParts, magnitude, signBit, UInt64.toNat_ofNat',
    Bool.toNat_true, Bool.toNat_false] at h ⊢ <;> omega

theorem negative_ofParts {n : Bool} {m : Nat} (h : m < signBit) : (ofParts n m).negative = n := by
  cases n <;> simp only [ofParts, negative, signBit, UInt64.toNat_ofNat',
    Bool.toNat_true, Bool.toNat_false, decide_eq_true_eq, decide_eq_false_iff_not] at h ⊢ <;> omega

theorem ofParts_magnitude (x : Binary64) : ofParts x.negative x.magnitude = x := by
  obtain ⟨b⟩ := x
  have hb := b.toNat_lt
  simp only [ofParts, negative, magnitude, mk.injEq]
  apply UInt64.toNat_inj.1
  by_cases h : signBit ≤ b.toNat <;>
    simp only [h, decide_true, decide_false, Bool.toNat_true, Bool.toNat_false,
      UInt64.toNat_ofNat'] <;> simp only [signBit] at h ⊢ <;> omega

/-- No magnitude up to that of the infinities is one of NaN. -/
theorem isNaN_ofParts {n : Bool} {m : Nat} (h : m ≤ infinity) : (ofParts n m).isNaN = false := by
  rw [isNaN, magnitude_ofParts (Nat.lt_of_le_of_lt h (by decide))]
  exact decide_eq_false (Nat.not_lt.2 h)

theorem compare?_eq_none_iff {x y : Binary64} :
    x.compare? y = none ↔ x.isNaN = true ∨ y.isNaN = true := by
  cases h : x.isNaN <;> simp [compare?, h]

end Binary64

end Lineup
