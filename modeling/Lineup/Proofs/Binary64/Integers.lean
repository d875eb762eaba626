import Lineup.Proofs.Binary64.Nearest

/-!
# Integers in double precision

An integer of at most fifty-three bits is a number of double precision (`units_nearest`), so such
integers stand in the same order as numbers as they do as integers (`compare?_ofInt`). Beyond them
different integers can be rounded to one number, but never out of their order (`key_ofInt_le`).
-/

namespace Lineup.Binary64

/-- The bound up to which all integers are numbers. -/
def exactBound : Nat := 0x20000000000000

theorem unitsOfOne_eq : ∃ c, c = 1074 ∧ unitsOfOne = 2 ^ c := ⟨1074, rfl, by decide +kernel⟩

/-- A positive integer within the bound has its leading bit as that of a significand once it is
shifted. -/
theorem exists_shift {k : Nat} (hpos : k ≠ 0) (hk : k ≤ exactBound) :
    ∃ e ≤ 52, fractionCount ≤ k * 2 ^ e ∧ k * 2 ^ e ≤ 2 * fractionCount := by
  have hbound : exactBound = 2 * fractionCount := rfl
  have hcount : fractionCount = 2 ^ 52 := rfl
  rcases Nat.lt_or_ge 52 k.log2 with hlog | hlog
  · refine ⟨0, Nat.zero_le _, ?_, by omega⟩
    have hle : 2 ^ 52 ≤ 2 ^ k.log2 := Nat.pow_le_pow_right (by decide) hlog.le
    rw [pow_zero, Nat.mul_one, hcount]
    exact hle.trans (Nat.log2_self_le hpos)
  · have hsum : k.log2 + (52 - k.log2) = 52 := by omega
    refine ⟨52 - k.log2, Nat.sub_le _ _, ?_, ?_⟩
    · calc fractionCount = 2 ^ k.log2 * 2 ^ (52 - k.log2) := by rw [← pow_add, hsum, hcount]
        _ ≤ k * 2 ^ (52 - k.log2) := Nat.mul_le_mul_right _ (Nat.log2_self_le hpos)
    · calc k * 2 ^ (52 - k.log2) ≤ 2 ^ (k.log2 + 1) * 2 ^ (52 - k.log2) :=
            Nat.mul_le_mul_right _ Nat.lt_log2_self.le
        _ = 2 * fractionCount := by rw [pow_succ, Nat.mul_right_comm, ← pow_add, hsum, hcount,
          Nat.mul_comm]

theorem exists_units_eq {k : Nat} (hk : k ≤ exactBound) :
    ∃ m ≤ infinity, units m = k * unitsOfOne := by
  obtain ⟨c, hc, hone⟩ := unitsOfOne_eq
  by_cases hpos : k = 0
  · exact ⟨0, Nat.zero_le _, by rw [hpos, Nat.zero_mul]; rfl⟩
  obtain ⟨e, he, hlow, hhigh⟩ := exists_shift hpos hk
  refine ⟨(c - e) * fractionCount + k * 2 ^ e, ?_, ?_⟩
  · have hle : (c - e) * fractionCount ≤ 1074 * fractionCount := Nat.mul_le_mul_right _ (by omega)
    have hinf : infinity = 2047 * fractionCount := rfl
    omega
  · rw [units_parts (.inl hlow) hhigh, hone, Nat.mul_assoc, ← pow_add,
      Nat.add_sub_cancel' (by omega)]

/-- An integer is rounded to the number that is nearest to it. -/
theorem isNearest_natCast (k : Nat) : IsNearest k (nearest (k * unitsOfOne) 1) := by
  have hnearest := isNearest_nearest (k * unitsOfOne) Nat.one_pos
  rwa [Nat.cast_one, div_one, Nat.cast_mul, mul_div_assoc, div_self unitsOfOne_pos.ne',
    mul_one] at hnearest

/-- An integer within the bound is a number, so that nothing is lost by rounding it. -/
theorem units_nearest {k : Nat} (hk : k ≤ exactBound) :
    units (nearest (k * unitsOfOne) 1) = k * unitsOfOne := by
  obtain ⟨m, hm, hunits⟩ := exists_units_eq hk
  have hvalue := isNearest_value hm
  rw [value_of_units_eq hunits] at hvalue
  rw [(isNearest_natCast k).unique hvalue, hunits]

/-- Beyond the bound there are no numbers but whole ones. -/
theorem unitsOfOne_dvd_units {m : Nat} (h : exactBound * unitsOfOne ≤ units m) :
    unitsOfOne ∣ units m := by
  obtain ⟨c, -, hone⟩ := unitsOfOne_eq
  obtain ⟨s, n, rfl, hparts, hn⟩ := exists_parts m
  rw [units_parts hparts hn.le, hone] at h ⊢
  have hpow : 2 ^ c < 2 ^ s := by
    refine Nat.lt_of_mul_lt_mul_left (a := exactBound) (h.trans_lt ?_)
    exact Nat.mul_lt_mul_of_pos_right hn (Nat.two_pow_pos s)
  have hle : c ≤ s := ((Nat.pow_lt_pow_iff_right (by decide)).1 hpow).le
  exact Nat.dvd_mul_left_of_dvd (pow_dvd_pow 2 hle) n

/-- An integer is never rounded to a number that is not whole. -/
theorem unitsOfOne_dvd_of_isNearest {k m : Nat} (h : IsNearest k m) : unitsOfOne ∣ units m := by
  rcases Nat.le_total k exactBound with hk | hk
  · -- within the bound, the integer is a number itself
    rw [h.unique (isNearest_natCast k), units_nearest hk]
    exact Nat.dvd_mul_left ..
  · -- beyond it, the nearest number does not lie below the bound
    apply unitsOfOne_dvd_units
    rw [← units_nearest le_rfl]
    exact strictMono_units.monotone ((isNearest_natCast _).mono h (Nat.cast_le.2 hk))

theorem nearest_lt_nearest_iff {a b : Nat} (ha : a ≤ exactBound) (hb : b ≤ exactBound) :
    nearest (a * unitsOfOne) 1 < nearest (b * unitsOfOne) 1 ↔ a < b := by
  have hone : 0 < unitsOfOne := by decide +kernel
  rw [← strictMono_units.lt_iff_lt, units_nearest ha, units_nearest hb, Nat.mul_lt_mul_right hone]

theorem isNaN_ofInt (n : Int) : (ofInt n).isNaN = false := isNaN_ofParts (nearest_le _ _)

theorem magnitude_ofInt (n : Int) :
    (ofInt n).magnitude = nearest (n.natAbs * unitsOfOne) 1 :=
  magnitude_ofParts ((nearest_le _ 1).trans_lt (by decide))

theorem negative_ofInt (n : Int) : (ofInt n).negative = decide (n < 0) :=
  negative_ofParts ((nearest_le _ 1).trans_lt (by decide))

theorem isNearest_ofInt (n : Int) : IsNearest n.natAbs (ofInt n).magnitude := by
  rw [magnitude_ofInt]
  exact isNearest_natCast n.natAbs

theorem key_ofInt (n : Int) : (ofInt n).key =
    if n < 0 then -(nearest (n.natAbs * unitsOfOne) 1 : Int)
    else nearest (n.natAbs * unitsOfOne) 1 := by
  rw [key, magnitude_ofInt, negative_ofInt]
  simp only [decide_eq_true_eq]

/-- Rounding integers keeps their order, though it can make different ones equal. -/
theorem key_ofInt_le {a b : Int} (h : a ≤ b) : (ofInt a).key ≤ (ofInt b).key := by
  have hmono : ∀ {m n : Int}, m.natAbs ≤ n.natAbs → (ofInt m).magnitude ≤ (ofInt n).magnitude :=
    fun hle => (isNearest_ofInt _).mono (isNearest_ofInt _) (Nat.cast_le.2 hle)
  simp only [key, negative_ofInt, decide_eq_true_eq]
  rcases lt_or_ge a 0 with ha | ha
  · rw [if_pos ha]
    rcases lt_or_ge b 0 with hb | hb
    · have hle := @hmono b a (by omega)
      rw [if_pos hb]
      omega
    · rw [if_neg (Int.not_lt.2 hb)]
      omega
  · have hle := @hmono a b (by omega)
    rw [if_neg (Int.not_lt.2 ha), if_neg (Int.not_lt.2 (ha.trans h))]
    omega

theorem key_ofInt_lt_iff {a b : Int} (ha : a.natAbs ≤ exactBound) (hb : b.natAbs ≤ exactBound) :
    (ofInt a).key < (ofInt b).key ↔ a < b := by
  have hab := nearest_lt_nearest_iff ha hb
  have hba := nearest_lt_nearest_iff hb ha
  have hzero : nearest (0 * unitsOfOne) 1 = 0 := by decide +kernel
  have ha0 := nearest_lt_nearest_iff (Nat.zero_le _) ha
  have hb0 := nearest_lt_nearest_iff (Nat.zero_le _) hb
  rw [hzero] at ha0 hb0
  rw [key_ofInt, key_ofInt]
  generalize nearest (a.natAbs * unitsOfOne) 1 = m at *
  generalize nearest (b.natAbs * unitsOfOne) 1 = k at *
  split <;> split <;> omega

/-- Integers within the bound are ordered as they are as numbers. -/
theorem compare?_ofInt {a b : Int} (ha : a.natAbs ≤ exactBound) (hb : b.natAbs ≤ exactBound) :
    (ofInt a).compare? (ofInt b) = some (compare a b) := by
  have hab := key_ofInt_lt_iff ha hb
  have hba := key_ofInt_lt_iff hb ha
  have hcompare : compare (ofInt a).key (ofInt b).key = compare a b := by
    rcases Int.lt_trichotomy a b with h | rfl | h
    · rw [Int.compare_eq_lt.2 h, Int.compare_eq_lt.2 (hab.2 h)]
    · rw [Int.compare_eq_eq.2 rfl, Int.compare_eq_eq.2 rfl]
    · rw [Int.compare_eq_gt.2 h, Int.compare_eq_gt.2 (hba.2 h)]
  rw [compare?, isNaN_ofInt, isNaN_ofInt, Bool.or_self, if_neg Bool.false_ne_true, hcompare]

end Lineup.Binary64
