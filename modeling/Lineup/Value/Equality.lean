import Lineup.Value.Basic

/-!
# Equality of values

Two values are alike when they are of one kind and hold the same thing, where both zeros are the
same number and so are all NaNs. A value is hashed by its digest, a list of words that tells apart
just those values that are not alike.
-/

namespace Lineup

namespace Binary64

/-- Whether two numbers are the same, every NaN being the same as every other. -/
def alike (x y : Binary64) : Bool := (x.isNaN && y.isNaN) || x.equal y

/-- The bits that stand for all numbers alike to `x`. -/
def canonicalBits (x : Binary64) : UInt64 :=
  if x.isNaN then (ofParts false quietNaN).bits
  else if x.magnitude = 0 then 0
  else x.bits

end Binary64

namespace Value

def alike : Value → Value → Bool
  | null, null => true
  | bool a, bool b => a = b
  | int a, int b => a = b
  | float a, float b => a.alike b
  | string a, string b => a = b
  | _, _ => false

instance : BEq Value := ⟨alike⟩

end Value

/-- The bytes of a text in UTF-8, closed by one that no text has, so that the digests of texts that
follow each other cannot run together. -/
def textDigest (s : String) : List UInt64 :=
  s.toUTF8.data.toList.map UInt8.toUInt64 ++ [0xff]

namespace Value

/-- What a value feeds to a hash, number by number: which kind it is of, and what it holds. -/
def digest : Value → List UInt64
  | null => [0]
  | bool b => [1, if b then 1 else 0]
  | int n => [2, n.toUInt64]
  | float x => [3, x.canonicalBits]
  | string s => 4 :: textDigest s

instance : Hashable Value := ⟨fun v => hash v.digest⟩

end Value

end Lineup
