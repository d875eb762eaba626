import Lineup.Binary64.Decimal
import Mathlib.Algebra.Order.Field.Power
import Mathlib.Data.Rat.Cast.Order
import Mathlib.Order.Monotone.Basic
import Mathlib.Tactic.FieldSimp
import Mathlib.Tactic.Linarith
import Mathlib.Tactic.Positivity
import Mathlib.Tactic.Ring

/-!
# Rounding to the nearest number

`IsNearest q m` says what rounding means without saying how it is done: no magnitude is closer to
`q` than `m`, and of two that are equally close `m` is the even one. At most one magnitude is
(`IsNearest.unique`), and rounding a decimal yields it (`Decimal.isNearest_magnitude`), so the
magnitude of a decimal depends on its value alone.
-/

namespace Lineup

namespace Binary64

/-- The value of a magnitude. The infinities count as the power of two after the finite numbers. -/
def value (m : Nat) : ℚ := units m / unitsOfOne

theorem unitsOfOne_pos : (0 : ℚ) < unitsOfOne := Nat.cast_pos.2 (by decide +kernel)

theorem value_of_units_eq {k m : Nat} (h : units m = k * unitsOfOne) : value m = k := by
  rw [value, h, Nat.cast_mul, mul_div_cancel_right₀ _ unitsOfOne_pos.ne']

/-- The magnitude `m` is the one nearest to `q`, a half going to the even neighbour. -/
structure IsNearest (q : ℚ) (m : Nat) : Prop where
  le_infinity : m ≤ infinity
  nearest : ∀ k ≤ infinity, |q - value m| ≤ |q - value k|
  even : ∀ k ≤ infinity, k ≠ m → |q - value m| = |q - value k| → m % 2 = 0

/-! ### The values of neighbours -/

theorem units_parts {s n : Nat} (h : fractionCount ≤ n ∨ s = 0) (hn : n ≤ 2 * fractionCount) :
    units (s * fractionCount + n) = n * 2 ^ s := by
  have hpos : 0 < fractionCount := by decide
  rcases Nat.lt_or_ge n fractionCount with hlt | hge
  · obtain rfl : s = 0 := h.resolve_left (Nat.not_le.2 hlt)
    simp [units, hlt]
  obtain ⟨k, rfl⟩ := Nat.exists_eq_add_of_le hge
  have hnot : ¬ s * fractionCount + (fractionCount + k) < fractionCount := by omega
  have hm : s * fractionCount + (fractionCount + k) = k + fractionCount * (s + 1) := by ring
  rw [units, if_neg hnot, hm, Nat.add_mul_mod_self_left, Nat.add_mul_div_left _ _ hpos]
  rcases Nat.lt_or_ge k fractionCount with hk | hk
  · rw [Nat.mod_eq_of_lt hk, Nat.div_eq_of_lt hk, Nat.zero_add, Nat.add_sub_cancel]
    rfl
  · obtain rfl : k = fractionCount := by omega
    rw [Nat.mod_self, Nat.div_self hpos, Nat.add_zero, Nat.add_sub_cancel_left]
    change fractionCount * 2 ^ (s + 1) = _
    ring

/-- Every magnitude is a significand below twice the fractions, at an exponent above zero only if
the significand has its leading bit. -/
theorem exists_parts (m : Nat) : ∃ s n, m = s * fractionCount + n ∧
    (fractionCount ≤ n ∨ s = 0) ∧ n < 2 * fractionCount := by
  have hlt : m % fractionCount < fractionCount := Nat.mod_lt _ (by decide)
  have hdiv := Nat.div_add_mod' m fractionCount
  rcases Nat.eq_zero_or_pos (m / fractionCount) with h | h
  · exact ⟨0, m % fractionCount, by rw [h] at hdiv; exact hdiv.symm, .inr rfl, by omega⟩
  · obtain ⟨s, hs⟩ := Nat.exists_eq_add_of_le' h
    refine ⟨s, fractionCount + m % fractionCount, ?_, .inl (Nat.le_add_right ..), by omega⟩
    calc m = (s + 1) * fractionCount + m % fractionCount := by rw [← hs, hdiv]
      _ = s * fractionCount + (fractionCount + m % fractionCount) := by ring

/-- Neighbours differ by a power of two. -/
theorem units_succ {s n : Nat} (h : fractionCount ≤ n ∨ s = 0) (hn : n < 2 * fractionCount) :
    units (s * fractionCount + n + 1) = units (s * fractionCount + n) + 2 ^ s := by
  have h' : fractionCount ≤ n + 1 ∨ s = 0 := h.imp_left fun h => h.trans (Nat.le_succ n)
  rw [Nat.add_assoc, units_parts h' hn, units_parts h hn.le]
  ring

theorem strictMono_units : StrictMono units := by
  apply strictMono_nat_of_lt_succ
  intro m
  obtain ⟨s, n, rfl, h, hn⟩ := exists_parts m
  rw [units_succ h hn]
  exact Nat.lt_add_of_pos_right (Nat.two_pow_pos s)

theorem strictMono_value : StrictMono value := by
  intro m k h
  exact div_lt_div_of_pos_right (Nat.cast_lt.2 (strictMono_units h)) unitsOfOne_pos

/-! ### What is nearest -/

/-- Two nearest magnitudes would both be even, with a nearer one between them. -/
theorem IsNearest.unique {q : ℚ} {m k : Nat} (hm : IsNearest q m) (hk : IsNearest q k) :
    m = k := by
  have aux {m k : Nat} (hm : IsNearest q m) (hk : IsNearest q k) : ¬ m < k := by
    intro hlt
    have hdist := le_antisymm (hm.nearest k hk.le_infinity) (hk.nearest m hm.le_infinity)
    have hme := hm.even k hk.le_infinity hlt.ne' hdist
    have hke := hk.even m hm.le_infinity hlt.ne hdist.symm
    have hbetween : m + 1 < k := by omega
    have hnear := hm.nearest (m + 1) (hbetween.le.trans hk.le_infinity)
    have hv₁ := strictMono_value (Nat.lt_succ_self m)
    have hv₂ := strictMono_value hbetween
    simp only [Nat.succ_eq_add_one] at hv₁
    rcases abs_cases (q - value m) with ⟨h₁, _⟩ | ⟨h₁, _⟩ <;>
      rcases abs_cases (q - value k) with ⟨h₂, _⟩ | ⟨h₂, _⟩ <;>
      rcases abs_cases (q - value (m + 1)) with ⟨h₃, _⟩ | ⟨h₃, _⟩ <;> linarith
  exact Nat.le_antisymm (Nat.not_lt.1 (aux hk hm)) (Nat.not_lt.1 (aux hm hk))

/-- What is not farther from the greater of two numbers does not lie below their midpoint. -/
theorem midpoint_le_of_abs_le {q a b : ℚ} (hab : a < b) (h : |q - b| ≤ |q - a|) :
    a + b ≤ 2 * q := by
  have hsq : (q - b) ^ 2 ≤ (q - a) ^ 2 := sq_le_sq.2 h
  have hmul : 0 ≤ (b - a) * (2 * q - (a + b)) := by linarith
  have hmid : 0 ≤ 2 * q - (a + b) := nonneg_of_mul_nonneg_right hmul (sub_pos.2 hab)
  linarith

/-- Of two numbers, the greater one is not rounded to the smaller magnitude. -/
theorem IsNearest.mono {q r : ℚ} {m k : Nat} (hm : IsNearest q m) (hk : IsNearest r k)
    (h : q ≤ r) : m ≤ k := by
  rcases h.eq_or_lt with rfl | hlt
  · exact (hm.unique hk).le
  by_contra hnot
  have hval : value k < value m := strictMono_value (Nat.not_le.1 hnot)
  have hq : value k + value m ≤ 2 * q :=
    midpoint_le_of_abs_le hval (hm.nearest k hk.le_infinity)
  have hr : -value m + -value k ≤ 2 * -r := by
    apply midpoint_le_of_abs_le (neg_lt_neg hval)
    rw [← abs_neg, ← abs_neg (-r - -value m)]
    simpa only [neg_sub_neg, neg_sub] using hk.nearest m hm.le_infinity
  linarith

/-- It is enough to lie between the midpoints to the neighbours, on them only if even. -/
theorem isNearest_of_midpoints {q : ℚ} {m : Nat} (hm : m ≤ infinity)
    (below : ∀ k < m, value k + value m ≤ 2 * q)
    (above : ∀ k, m < k → k ≤ infinity → 2 * q ≤ value m + value k)
    (even : ∀ k ≤ infinity, k ≠ m → value k + value m = 2 * q → m % 2 = 0) : IsNearest q m := by
  have key : ∀ k ≤ infinity, k ≠ m →
      |q - value m| ≤ |q - value k| ∧ (|q - value m| = |q - value k| → m % 2 = 0) := by
    intro k hk hne
    have heven := even k hk hne
    rcases Nat.lt_or_gt_of_ne hne with hlt | hlt
    · have hmid := below k hlt
      have hval := strictMono_value hlt
      have habs : |q - value k| = q - value k := abs_of_pos (by linarith)
      rw [habs]
      refine ⟨abs_le.2 ⟨by linarith, by linarith⟩, fun h => heven ?_⟩
      rcases abs_cases (q - value m) with ⟨h', _⟩ | ⟨h', _⟩ <;> linarith
    · have hmid := above k hlt hk
      have hval := strictMono_value hlt
      have habs : |q - value k| = value k - q := by
        rw [abs_of_neg (by linarith)]
        ring
      rw [habs]
      refine ⟨abs_le.2 ⟨by linarith, by linarith⟩, fun h => heven ?_⟩
      rcases abs_cases (q - value m) with ⟨h', _⟩ | ⟨h', _⟩ <;> linarith
  refine ⟨hm, fun k hk => ?_, fun k hk hne => (key k hk hne).2⟩
  by_cases hne : k = m
  · rw [hne]
  · exact (key k hk hne).1

/-- A finite magnitude is the one nearest to its own value. -/
theorem isNearest_value {m : Nat} (hm : m ≤ infinity) : IsNearest (value m) m := by
  refine isNearest_of_midpoints hm (fun k hk => ?_) (fun k hk _ => ?_) fun k _ hne h => ?_
  · have := strictMono_value hk
    linarith
  · have := strictMono_value hk
    linarith
  · exact absurd (strictMono_value.injective (by linarith)) hne

/-! ### Rounding a quotient -/

/-- Rounding stays within a half, and on it only if the result is even. -/
theorem roundHalfEven_spec (num : Nat) {den : Nat} (h : 0 < den) :
    let n := roundHalfEven num den
    2 * (n * den) ≤ 2 * num + den ∧ 2 * num ≤ 2 * (n * den) + den ∧
      (2 * (n * den) = 2 * num + den ∨ 2 * num = 2 * (n * den) + den → n % 2 = 0) := by
  intro n
  have hdiv : num / den * den + num % den = num := Nat.div_add_mod' num den
  have hmod : num % den < den := Nat.mod_lt _ h
  have hsucc : (num / den + 1) * den = num / den * den + den := by ring
  rcases Nat.lt_trichotomy (2 * (num % den)) den with hlt | heq | hgt
  · have hn : n = num / den := by simp [n, roundHalfEven, Nat.compare_eq_lt.2 hlt]
    rw [hn]
    omega
  · rcases Nat.mod_two_eq_zero_or_one (num / den) with he | ho
    · have hn : n = num / den := by simp [n, roundHalfEven, Nat.compare_eq_eq.2 heq, he]
      rw [hn]
      omega
    · have hn : n = num / den + 1 := by simp [n, roundHalfEven, Nat.compare_eq_eq.2 heq, ho]
      rw [hn, hsucc]
      omega
  · have hn : n = num / den + 1 := by simp [n, roundHalfEven, Nat.compare_eq_gt.2 hgt]
    rw [hn, hsucc]
    omega

/-- The exponent at which a quotient is rounded. -/
def shiftOf (num den : Nat) : Nat := (num / den).log2 - 52

/-- The significand that a quotient is rounded to. -/
def significandOf (num den : Nat) : Nat := roundHalfEven num (den * 2 ^ shiftOf num den)

theorem nearest_eq (num den : Nat) : nearest num den =
    min (shiftOf num den * fractionCount + significandOf num den) infinity := rfl

theorem significandOf_le (num : Nat) {den : Nat} (h : 0 < den) :
    significandOf num den ≤ 2 * fractionCount := by
  have hd : 0 < den * 2 ^ shiftOf num den := Nat.mul_pos h (Nat.two_pow_pos _)
  have hspec := (roundHalfEven_spec num hd).1
  have hlog : num / den < 2 * fractionCount * 2 ^ shiftOf num den := by
    apply Nat.lt_log2_self.trans_le
    change _ ≤ 2 ^ 53 * 2 ^ shiftOf num den
    rw [← Nat.pow_add]
    exact Nat.pow_le_pow_right (by decide) (by unfold shiftOf; omega)
  have hnum : num < 2 * fractionCount * (den * 2 ^ shiftOf num den) := by
    rw [Nat.div_lt_iff_lt_mul h] at hlog
    linarith
  unfold significandOf
  have hlt : 2 * roundHalfEven num (den * 2 ^ shiftOf num den) * (den * 2 ^ shiftOf num den) <
      (4 * fractionCount + 1) * (den * 2 ^ shiftOf num den) := by linarith
  have := Nat.lt_of_mul_lt_mul_right hlt
  omega

/-- Above the least exponent the quotient has the leading bit of a significand. -/
theorem leading_le (num : Nat) {den : Nat} (h : 0 < den) (hs : shiftOf num den ≠ 0) :
    fractionCount * 2 ^ shiftOf num den * den ≤ num := by
  have hne : num / den ≠ 0 := by
    intro h0
    simp [shiftOf, h0] at hs
  have hlog : fractionCount * 2 ^ shiftOf num den ≤ num / den := by
    change 2 ^ 52 * 2 ^ shiftOf num den ≤ _
    have hexp : 52 + shiftOf num den = (num / den).log2 := by unfold shiftOf at hs ⊢; omega
    rw [← Nat.pow_add, hexp]
    exact Nat.log2_self_le hne
  exact (Nat.le_div_iff_mul_le h).1 hlog

theorem le_significandOf (num : Nat) {den : Nat} (h : 0 < den) :
    fractionCount ≤ significandOf num den ∨ shiftOf num den = 0 := by
  by_cases hs : shiftOf num den = 0
  · exact .inr hs
  have hd : 0 < den * 2 ^ shiftOf num den := Nat.mul_pos h (Nat.two_pow_pos _)
  have hspec := (roundHalfEven_spec num hd).2.1
  have hlead := leading_le num h hs
  have hlt : (2 * fractionCount) * (den * 2 ^ shiftOf num den) <
      (2 * significandOf num den + 2) * (den * 2 ^ shiftOf num den) := by
    unfold significandOf
    linarith
  have := Nat.lt_of_mul_lt_mul_right hlt
  exact .inl (by omega)

/-- The magnitude that a quotient is rounded to, were there no infinity. -/
def unbounded (num den : Nat) : Nat := shiftOf num den * fractionCount + significandOf num den

theorem unbounded_mod_two (num den : Nat) :
    unbounded num den % 2 = significandOf num den % 2 := by
  have hfc : fractionCount = 2 * 2 ^ 51 := rfl
  have hmul : unbounded num den =
      significandOf num den + 2 * (shiftOf num den * 2 ^ 51) := by
    unfold unbounded
    rw [hfc]
    ring
  rw [hmul, Nat.add_mul_mod_self_left]

theorem units_unbounded (num : Nat) {den : Nat} (h : 0 < den) :
    units (unbounded num den) = significandOf num den * 2 ^ shiftOf num den :=
  units_parts (le_significandOf num h) (significandOf_le num h)

/-- The magnitude after the rounded one is at least one step of the significand away. -/
theorem units_unbounded_succ_le (num : Nat) {den : Nat} (h : 0 < den) :
    units (unbounded num den) + 2 ^ shiftOf num den ≤ units (unbounded num den + 1) := by
  rcases (significandOf_le num h).lt_or_eq with hlt | heq
  · exact (units_succ (le_significandOf num h) hlt).ge
  · have hm : unbounded num den = (shiftOf num den + 1) * fractionCount + fractionCount := by
      unfold unbounded
      rw [heq]
      ring
    rw [hm, units_succ (.inl le_rfl) (by decide)]
    exact Nat.add_le_add_left (Nat.pow_le_pow_right (by decide) (Nat.le_succ _)) _

theorem le_midpoint_above (num : Nat) {den k : Nat} (h : 0 < den) (hk : unbounded num den < k) :
    2 * num ≤ (units (unbounded num den) + units k) * den ∧
      ((units (unbounded num den) + units k) * den = 2 * num → unbounded num den % 2 = 0) := by
  have hd : 0 < den * 2 ^ shiftOf num den := Nat.mul_pos h (Nat.two_pow_pos _)
  obtain ⟨-, hup, heven⟩ := roundHalfEven_spec num hd
  change _ ≤ 2 * (significandOf num den * _) + _ at hup
  change _ ∨ _ = 2 * (significandOf num den * _) + _ → significandOf num den % 2 = 0 at heven
  have hnext : units (unbounded num den) + 2 ^ shiftOf num den ≤ units k :=
    (units_unbounded_succ_le num h).trans (strictMono_units.monotone hk)
  have hmul := Nat.mul_le_mul_right den hnext
  rw [units_unbounded num h] at hmul ⊢
  rw [unbounded_mod_two]
  refine ⟨by linarith, fun heq => heven (.inr ?_)⟩
  linarith

theorem midpoint_below_le (num : Nat) {den k : Nat} (h : 0 < den) (hk : k < unbounded num den) :
    (units k + units (unbounded num den)) * den ≤ 2 * num ∧
      ((units k + units (unbounded num den)) * den = 2 * num → unbounded num den % 2 = 0) := by
  have hd : 0 < den * 2 ^ shiftOf num den := Nat.mul_pos h (Nat.two_pow_pos _)
  obtain ⟨hlow, -, heven⟩ := roundHalfEven_spec num hd
  change 2 * (significandOf num den * _) ≤ _ at hlow
  change 2 * (significandOf num den * _) = _ ∨ _ → significandOf num den % 2 = 0 at heven
  have hle : units k ≤ units (unbounded num den) := (strictMono_units hk).le
  have hunits := units_unbounded num h
  rw [unbounded_mod_two]
  by_cases hfirst : significandOf num den = fractionCount ∧ shiftOf num den ≠ 0
  · -- The first significand of an exponent is rounded to from above only.
    obtain ⟨hn, hs⟩ := hfirst
    have hlead := leading_le num h hs
    rw [hn] at hunits ⊢
    rw [← hunits] at hlead
    have hmul := Nat.mul_le_mul_right den hle
    exact ⟨by linarith, fun _ => rfl⟩
  · obtain ⟨n, hn⟩ : ∃ n, significandOf num den = n + 1 := by
      apply Nat.exists_eq_succ_of_ne_zero
      intro h0
      rcases le_significandOf num h with hge | hs
      · rw [h0] at hge
        exact absurd hge (by decide)
      · rw [unbounded, h0, hs] at hk
        omega
    have hparts : fractionCount ≤ n ∨ shiftOf num den = 0 := by
      rcases le_significandOf num h with hge | hs
      · by_cases hs : shiftOf num den = 0
        · exact .inr hs
        · have : significandOf num den ≠ fractionCount := fun he => hfirst ⟨he, hs⟩
          exact .inl (by omega)
      · exact .inr hs
    have hprev : units k ≤ n * 2 ^ shiftOf num den := by
      have hle := significandOf_le num h
      rw [← units_parts hparts (by omega)]
      refine strictMono_units.monotone (Nat.le_of_lt_succ ?_)
      rwa [unbounded, hn] at hk
    have hmul := Nat.mul_le_mul_right den hprev
    rw [hunits]
    rw [hn] at hlow heven ⊢
    refine ⟨by linarith, fun heq => heven (.inl ?_)⟩
    linarith

/-- A quotient of numbers of units, as a value. -/
theorem isNearest_nearest (num : Nat) {den : Nat} (h : 0 < den) :
    IsNearest (num / den / unitsOfOne) (nearest num den) := by
  have hden : (0 : ℚ) < den := by exact_mod_cast h
  have hone := unitsOfOne_pos
  have hscale : ∀ a b : Nat, ((units a + units b) * den ≤ 2 * num ↔
      value a + value b ≤ 2 * ((num : ℚ) / den / unitsOfOne)) := by
    intro a b
    rw [← Nat.cast_le (α := ℚ)]
    unfold value
    push_cast
    field_simp
  have hscale' : ∀ a b : Nat, (2 * num ≤ (units a + units b) * den ↔
      2 * ((num : ℚ) / den / unitsOfOne) ≤ value a + value b) := by
    intro a b
    rw [← Nat.cast_le (α := ℚ)]
    unfold value
    push_cast
    field_simp
  rw [nearest_eq]
  change IsNearest _ (min (unbounded num den) infinity)
  rcases le_or_gt (unbounded num den) infinity with hm | hm
  · rw [Nat.min_eq_left hm]
    refine isNearest_of_midpoints hm (fun k hk => (hscale _ _).1 (midpoint_below_le num h hk).1)
      (fun k hk _ => (hscale' _ _).1 (le_midpoint_above num h hk).1) fun k _ hne heq => ?_
    have hnat : (units k + units (unbounded num den)) * den = 2 * num :=
      Nat.le_antisymm ((hscale _ _).2 heq.le) ((hscale' _ _).2 heq.ge)
    rcases Nat.lt_or_gt_of_ne hne with hlt | hlt
    · exact (midpoint_below_le num h hlt).2 hnat
    · rw [Nat.add_comm] at hnat
      exact (le_midpoint_above num h hlt).2 hnat
  · rw [Nat.min_eq_right hm.le]
    have hbelow := (hscale _ _).1 (midpoint_below_le num h hm).1
    have hval := strictMono_value hm
    refine isNearest_of_midpoints le_rfl (fun k hk => ?_) (fun k hk hk' => ?_) fun _ _ _ _ => rfl
    · have := strictMono_value hk
      linarith
    · exact absurd hk (Nat.not_lt.2 hk')

end Binary64

/-! ### Decimals -/

namespace Decimal

/-- The value of a decimal. -/
def value (d : Decimal) : ℚ := d.significand * 10 ^ d.exponent

theorem num_div_den (d : Decimal) : (d.num / d.den : ℚ) = d.value := by
  have hnum : d.num = d.significand * 10 ^ d.exponent.toNat := rfl
  have hden : d.den = 10 ^ (-d.exponent).toNat := rfl
  rw [hnum, hden, value]
  push_cast
  rcases le_total 0 d.exponent with h | h
  · have hneg : (-d.exponent).toNat = 0 := Int.toNat_of_nonpos (by omega)
    rw [hneg, pow_zero, div_one, ← zpow_natCast, Int.toNat_of_nonneg h]
  · rw [Int.toNat_of_nonpos h, pow_zero, mul_one, ← zpow_natCast, Int.toNat_of_nonneg (by omega),
      zpow_neg, div_inv_eq_mul]

theorem den_pos (d : Decimal) : 0 < d.den := Nat.pow_pos (by decide)

/-- A decimal that is cut off as too small has less than a quarter of the least number. -/
theorem num_lt_of_tooSmall {d : Decimal} (h : d.tooSmall) :
    4 * (d.num * Binary64.unitsOfOne) < d.den := by
  obtain ⟨n, e⟩ := d
  simp only [tooSmall, decide_eq_true_eq] at h
  obtain ⟨k, rfl⟩ : ∃ k : Nat, e = -k := ⟨(-e).toNat, by omega⟩
  have hnum : (⟨n, -k⟩ : Decimal).num = n := by
    change n * 10 ^ (-k : Int).toNat = n
    rw [Int.toNat_of_nonpos (by omega), pow_zero, Nat.mul_one]
  have hden : (⟨n, -k⟩ : Decimal).den = 10 ^ k := by
    change 10 ^ (- -k : Int).toNat = _
    rw [neg_neg, Int.toNat_natCast]
  obtain ⟨b, hb, hfour⟩ : ∃ b, b = 1076 ∧ 4 * Binary64.unitsOfOne = 2 ^ b := by
    exact ⟨1076, rfl, by decide +kernel⟩
  rw [hnum, hden]
  calc 4 * (n * Binary64.unitsOfOne) = n * 2 ^ b := by rw [Nat.mul_left_comm, hfour]
    _ < 2 ^ (n.log2 + 1) * 2 ^ b :=
        Nat.mul_lt_mul_of_pos_right Nat.lt_log2_self (Nat.two_pow_pos _)
    _ = 2 ^ (n.log2 + 1 + b) := (Nat.pow_add ..).symm
    _ ≤ 2 ^ (3 * k) := Nat.pow_le_pow_right (by decide) (by omega)
    _ = (2 ^ 3) ^ k := Nat.pow_mul ..
    _ ≤ 10 ^ k := Nat.pow_le_pow_left (by decide) k

theorem infinity_le_of_tooLarge {d : Decimal} (h : d.tooLarge) :
    Binary64.units Binary64.infinity * d.den ≤ d.num * Binary64.unitsOfOne := by
  obtain ⟨n, e⟩ := d
  simp only [tooLarge, Bool.and_eq_true, decide_eq_true_eq] at h
  have hinf : Binary64.units Binary64.infinity = 2 ^ 1024 * Binary64.unitsOfOne := by
    decide +kernel
  have hden : (⟨n, e⟩ : Decimal).den = 1 := by
    change 10 ^ (-e).toNat = 1
    rw [Int.toNat_of_nonpos (by omega), pow_zero]
  rw [hinf, hden, Nat.mul_one]
  refine Nat.mul_le_mul_right _ ?_
  calc 2 ^ 1024 ≤ 10 ^ 400 := by decide +kernel
    _ ≤ 10 ^ e.toNat := Nat.pow_le_pow_right (by decide) (by omega)
    _ ≤ n * 10 ^ e.toNat := Nat.le_mul_of_pos_left _ (Nat.pos_of_ne_zero h.1)

theorem scaled_div_den (d : Decimal) :
    ((d.num * Binary64.unitsOfOne : Nat) : ℚ) / d.den / Binary64.unitsOfOne = d.value := by
  rw [← num_div_den, Nat.cast_mul, div_right_comm, mul_div_assoc,
    div_self Binary64.unitsOfOne_pos.ne', mul_one]

theorem isNearest_infinity {d : Decimal} (h : d.tooLarge) :
    Binary64.IsNearest d.value Binary64.infinity := by
  have hone := Binary64.unitsOfOne_pos
  have hden : (0 : ℚ) < d.den := Nat.cast_pos.2 d.den_pos
  have hle : Binary64.value Binary64.infinity ≤ d.value := by
    rw [← scaled_div_den]
    refine div_le_div_of_nonneg_right ?_ hone.le
    rw [le_div_iff₀ hden]
    exact_mod_cast infinity_le_of_tooLarge h
  refine Binary64.isNearest_of_midpoints le_rfl (fun k hk => ?_) (fun k hk hk' => ?_)
    fun _ _ _ _ => rfl
  · have := Binary64.strictMono_value hk
    linarith
  · exact absurd hk (Nat.not_lt.2 hk')

/-- The magnitude of a decimal is the one nearest to its value. -/
theorem isNearest_magnitude (d : Decimal) : Binary64.IsNearest d.value d.magnitude := by
  have hnear := Binary64.isNearest_nearest (d.num * Binary64.unitsOfOne) d.den_pos
  rw [scaled_div_den] at hnear
  unfold magnitude
  split
  · rename_i hsmall
    rw [Bool.or_eq_true, decide_eq_true_eq] at hsmall
    have hlt : 4 * (d.num * Binary64.unitsOfOne) < d.den := by
      rcases hsmall with h0 | hsmall
      · have : d.num = 0 := by rw [num, h0, Nat.zero_mul]
        rw [this, Nat.zero_mul, Nat.mul_zero]
        exact d.den_pos
      · exact num_lt_of_tooSmall hsmall
    suffices h : Binary64.nearest (d.num * Binary64.unitsOfOne) d.den = 0 by rwa [h] at hnear
    have hdiv : d.num * Binary64.unitsOfOne / d.den = 0 := Nat.div_eq_of_lt (by omega)
    have hround : Binary64.roundHalfEven (d.num * Binary64.unitsOfOne) d.den = 0 := by
      have hspec := (Binary64.roundHalfEven_spec (d.num * Binary64.unitsOfOne) d.den_pos).1
      by_contra hne
      have := Nat.le_mul_of_pos_left d.den (Nat.pos_of_ne_zero hne)
      omega
    rw [Binary64.nearest, hdiv]
    simp only [Nat.log2_zero, Nat.zero_sub, Nat.zero_mul, Nat.pow_eq, pow_zero, mul_one, hround]
    rfl
  · split
    · rename_i hlarge
      exact isNearest_infinity hlarge
    · exact hnear

theorem magnitude_eq_iff {d : Decimal} {m : Nat} :
    d.magnitude = m ↔ Binary64.IsNearest d.value m := by
  constructor
  · rintro rfl
    exact d.isNearest_magnitude
  · intro h
    exact d.isNearest_magnitude.unique h

end Decimal

end Lineup
