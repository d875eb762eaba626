import Lineup.Binary64.Text
import Lineup.Proofs.Binary64.Nearest

/-!
# Numbers in full

A number is written in full as digits, with a point before the last of them if there are decimal
places. The digits that are chosen for a finite number stand for a decimal to which it is the
nearest number (`isNearest_shortest`), whether they are the shortest or, failing that, the exact
ones, and writing them in full does not change the value (`plainChars_spec`).
-/

namespace Lineup

namespace Decimal

/-- Digits, at least one. -/
def Digits (l : List Char) : Prop := l ≠ [] ∧ ∀ c ∈ l, c.isDigit

/-- Decimal places behind their point, nothing if there are none. -/
def pointed : List Char → List Char
  | [] => []
  | places => '.' :: places

theorem pointed_of_ne_nil {l : List Char} (h : l ≠ []) : pointed l = '.' :: l := by
  cases l with
  | nil => exact absurd rfl h
  | cons c l => rfl

theorem digits_toDigits (n : Nat) : Digits (Nat.toDigits 10 n) :=
  ⟨Nat.toDigits_ne_nil, fun _ hc => Nat.isDigit_of_mem_toDigits (by decide) (by decide) hc⟩

theorem isDigit_of_mem_replicate {n : Nat} {c : Char} (h : c ∈ List.replicate n '0') :
    c.isDigit := by
  rw [List.eq_of_mem_replicate h]
  rfl

/-- The digits of a positive number do not start with a zero. -/
theorem head?_toDigits {n : Nat} (hn : n ≠ 0) : (Nat.toDigits 10 n).head? ≠ some '0' := by
  have hdigit : ∀ k < 10, k ≠ 0 → Nat.digitChar k ≠ '0' := by decide
  induction n using Nat.strongRecOn with
  | ind n ih =>
    rw [Nat.toDigits_eq_if (by decide)]
    split
    · rename_i hlt
      exact fun h => hdigit n hlt hn (Option.some.inj h)
    · rw [List.head?_append_of_ne_nil _ Nat.toDigits_ne_nil]
      exact ih (n / 10) (by omega) (by omega)

/-- Writing digits in full puts a point into them, or zeros beside them, and so multiplies them by
a power of ten. The mark of a whole number is any number of zeros. -/
theorem inFull_spec {digits : List Char} (h : Digits digits) (zeros : Nat) (point : Int) :
    ∃ whole places, inFull (pointed (List.replicate zeros '0')) digits point =
        whole ++ pointed places ∧ Digits whole ∧ (∀ c ∈ places, c.isDigit) ∧
      (ofDigits whole places 0).value =
        Nat.ofDigitChars 10 digits 0 * 10 ^ (point - digits.length) ∧
      (whole = ['0'] ∨ whole.head? = digits.head?) ∧ (zeros ≠ 0 → places ≠ []) := by
  obtain ⟨hne, hdigits⟩ := h
  have hpos : 0 < digits.length := List.length_pos_of_ne_nil hne
  unfold inFull
  split
  · -- all digits are decimal places, behind zeros
    have hplaces : List.replicate (-point).toNat '0' ++ digits ≠ [] :=
      List.append_ne_nil_of_right_ne_nil _ hne
    refine ⟨['0'], List.replicate (-point).toNat '0' ++ digits, ?_,
      ⟨nofun, List.forall_mem_singleton.2 rfl⟩, ?_, ?_, .inl rfl, fun _ => hplaces⟩
    · rw [pointed_of_ne_nil hplaces]
      rfl
    · exact List.forall_mem_append.2 ⟨fun c => isDigit_of_mem_replicate, hdigits⟩
    · have hexp : (0 : Int) - (List.replicate (-point).toNat '0' ++ digits).length =
          point - digits.length := by
        rw [List.length_append, List.length_replicate]
        omega
      have hzeros : ['0'] ++ (List.replicate (-point).toNat '0' ++ digits) =
          List.replicate ((-point).toNat + 1) '0' ++ digits := rfl
      rw [ofDigits, hexp, hzeros, Nat.ofDigitChars_append, Nat.ofDigitChars_replicate_zero,
        Nat.mul_zero]
      rfl
  · split
    · -- all digits stand before the point, and zeros behind them
      rename_i hpoint hlen
      refine ⟨digits ++ List.replicate (point.toNat - digits.length) '0',
        List.replicate zeros '0', rfl, ⟨List.append_ne_nil_of_left_ne_nil hne _, ?_⟩,
        fun c => isDigit_of_mem_replicate, ?_, .inr (List.head?_append_of_ne_nil _ hne), ?_⟩
      · exact List.forall_mem_append.2 ⟨hdigits, fun c => isDigit_of_mem_replicate⟩
      · have hcount : ((point.toNat - digits.length : Nat) : Int) = point - digits.length := by
          omega
        rw [ofDigits, value, Nat.ofDigitChars_append, Nat.ofDigitChars_append,
          Nat.ofDigitChars_replicate_zero, Nat.ofDigitChars_replicate_zero, List.length_replicate,
          ← hcount, zpow_natCast, zero_sub, zpow_neg, zpow_natCast]
        push_cast
        field_simp
      · rw [Ne, Ne, List.replicate_eq_nil_iff]
        exact id
    · -- the point stands among the digits
      rename_i hpoint hlen
      have hdrop : digits.drop point.toNat ≠ [] := by
        rw [Ne, List.drop_eq_nil_iff]
        exact hlen
      have htake : digits.take point.toNat ≠ [] := by
        rw [Ne, List.take_eq_nil_iff, not_or]
        exact ⟨by omega, hne⟩
      refine ⟨digits.take point.toNat, digits.drop point.toNat, ?_, ⟨htake, fun c hc => ?_⟩,
        fun c hc => ?_, ?_, .inr ?_, fun _ => hdrop⟩
      · rw [pointed_of_ne_nil hdrop]
      · exact hdigits c (List.mem_of_mem_take hc)
      · exact hdigits c (List.mem_of_mem_drop hc)
      · have hexp : (0 : Int) - (digits.drop point.toNat).length = point - digits.length := by
          rw [List.length_drop]
          omega
        rw [ofDigits, hexp, List.take_append_drop]
        rfl
      · rw [List.head?_take, if_neg (by omega)]

/-- A decimal that is written in full keeps its value. -/
theorem plainChars_spec (d : Decimal) : ∃ whole places,
    d.chars .plain = whole ++ pointed places ∧ Digits whole ∧ (∀ c ∈ places, c.isDigit) ∧
      (ofDigits whole places 0).value = d.value := by
  obtain ⟨whole, places, htext, hwhole, hplaces, hvalue, -, -⟩ :=
    inFull_spec (digits_toDigits d.significand) 0
      ((Nat.toDigits 10 d.significand).length + d.exponent)
  refine ⟨whole, places, htext, hwhole, hplaces, ?_⟩
  rw [hvalue, Nat.ofDigitChars_ten_toDigits, add_sub_cancel_left]
  rfl

end Decimal

namespace Binary64

/-! ### The chosen digits -/

/-- Two powers whose exponents are one number, kept apart from its digits. -/
theorem cast_pow_mul_zpow (u n : Nat) :
    (((u * Nat.pow 5 n : Nat) : ℚ) * 10 ^ (-(n : Int))) = u / (Nat.pow 2 n : Nat) := by
  have hten : (10 : ℚ) ^ n = 5 ^ n * 2 ^ n := by rw [← mul_pow]; norm_num
  rw [zpow_neg, zpow_natCast, hten, Nat.cast_mul, Nat.pow_eq, Nat.pow_eq, Nat.cast_pow,
    Nat.cast_pow]
  push_cast
  field_simp

theorem value_exactDecimal (m : Nat) : (exactDecimal m).value = value m := by
  have hone : unitsOfOne = Nat.pow 2 1074 := by decide +kernel
  have hexp : (-1074 : Int) = -((1074 : Nat) : Int) := rfl
  rw [value, exactDecimal, hone, hexp]
  generalize 1074 = n
  exact cast_pow_mul_zpow (units m) n

theorem magnitude_of_onGrid {tie : Tie} {m : Nat} {p : Int} {d : Decimal}
    (h : onGrid tie m p = some d) : d.magnitude = m := by
  unfold onGrid at h
  dsimp only at h
  split at h
  · exact absurd h nofun
  · rename_i hbelow _
    obtain rfl := Option.some.inj h
    exact of_decide_eq_true hbelow
  · rename_i habove
    obtain rfl := Option.some.inj h
    exact of_decide_eq_true habove
  · rename_i hbelow habove
    have hbelow := of_decide_eq_true hbelow
    have habove := of_decide_eq_true habove
    split at h
    · exact Option.some.inj h ▸ hbelow
    · exact Option.some.inj h ▸ habove
    · split at h
      · exact Option.some.inj h ▸ hbelow
      · exact Option.some.inj h ▸ habove

theorem isNearest_firstOnGrid (tie : Tie) {m : Nat} (hm : m ≤ infinity) (grids : Nat) :
    ∀ p, IsNearest (firstOnGrid tie m grids p).value m := by
  induction grids with
  | zero =>
    intro p
    rw [firstOnGrid, value_exactDecimal]
    exact isNearest_value hm
  | succ grids ih =>
    intro p
    rw [firstOnGrid]
    cases h : onGrid tie m p with
    | none => exact ih (p - 1)
    | some d => exact Decimal.magnitude_eq_iff.1 (magnitude_of_onGrid h)

/-- The chosen digits of a number read back as that number. -/
theorem isNearest_shortest (tie : Tie) {m : Nat} (hm : m ≤ infinity) :
    IsNearest (shortest tie m).value m :=
  isNearest_firstOnGrid tie hm 20 _

/-- The digits of a number are not zero unless it is. -/
theorem significand_shortest_ne_zero (tie : Tie) {m : Nat} (hm : m ≤ infinity) (hpos : m ≠ 0) :
    (shortest tie m).significand ≠ 0 := by
  intro hd
  have hzero : value 0 = 0 := by
    rw [value, units, if_pos (by decide), Nat.cast_zero, zero_div]
  have hnearest := isNearest_shortest tie hm
  rw [Decimal.value, hd, Nat.cast_zero, zero_mul, ← hzero] at hnearest
  exact hpos (hnearest.unique (isNearest_value (Nat.zero_le _)))

/-- A magnitude in full is digits, with or without decimal places, to which it is the nearest. -/
theorem finiteChars_plain {m : Nat} (hm : m ≤ infinity) : ∃ whole places,
    finiteChars .plain m = whole ++ Decimal.pointed places ∧ Decimal.Digits whole ∧
      (∀ c ∈ places, c.isDigit) ∧ IsNearest (Decimal.ofDigits whole places 0).value m := by
  unfold finiteChars
  split
  · rename_i hzero
    refine ⟨['0'], [], rfl, ⟨nofun, List.forall_mem_singleton.2 rfl⟩, nofun, ?_⟩
    rw [hzero]
    exact Decimal.magnitude_eq_iff.1 rfl
  · obtain ⟨whole, places, htext, hwhole, hplaces, hvalue⟩ :=
      Decimal.plainChars_spec (shortest .up m)
    refine ⟨whole, places, htext, hwhole, hplaces, ?_⟩
    rw [hvalue]
    exact isNearest_shortest .up hm

/-- What an infinity is written as. -/
theorem text_of_infinite {x : Binary64} (hn : x.isNaN = false) (hx : x.isFinite = false) :
    x.text .plain = if x.negative then "-inf" else "inf" := by
  simp only [text, chars, hn, hx, signChars]
  cases x.negative <;> rfl

end Binary64

end Lineup
