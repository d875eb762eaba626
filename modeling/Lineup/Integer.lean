/-!
# Integers of sixty-four bits
-/

namespace Lineup

/-- The sixty-four bits of an integer that fits them. -/
def int64? (n : Int) : Option Int64 :=
  if Int64.minValue.toInt ≤ n ∧ n ≤ Int64.maxValue.toInt then some (.ofInt n) else none

@[simp] theorem int64?_toInt (n : Int64) : int64? n.toInt = some n := by
  have lower := n.le_toInt
  have upper := n.toInt_lt
  rw [int64?, if_pos, Int64.ofInt_toInt]
  rw [Int64.toInt_minValue, Int64.toInt_maxValue]
  omega

theorem toInt_of_int64? {n : Int} {k : Int64} (h : int64? n = some k) : k.toInt = n := by
  unfold int64? at h
  split at h
  · rename_i hn
    cases h
    rw [Int64.toInt_minValue, Int64.toInt_maxValue] at hn
    exact Int64.toInt_ofInt_of_le hn.1 (by omega)
  · cases h

end Lineup
