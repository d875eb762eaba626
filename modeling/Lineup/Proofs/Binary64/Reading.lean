import Lineup.Binary64.Numeral
import Lineup.Proofs.Binary64.Integers
import Lineup.Proofs.RuleText.Tokens

/-!
# Numerals that read back

A number that is written out in full, be it by its shortest digits or, if it is whole, by all of its
digits, reads back as itself. So does an integer, as the number nearest to it.
-/

namespace Lineup.Binary64

open Decimal (Digits pointed pointed_of_ne_nil digits_toDigits)
open RuleText (isWordStart isWordStart_of_isDigit isBlank_of_isDigit stops_signed)
open RuleText.Grammar (signed)
open Text (Stops stops_nil stops_cons takeWhile_append_of_stops dropWhile_append_of_stops)

variable {whole places : List Char} {x : Binary64}

/-! ### Reading -/

/-- Whether a character, behind digits, could belong to their number. -/
def isPlace (c : Char) : Bool := c.isDigit || c = '.'

theorem stops_isDigit {r : List Char} (hr : Stops isPlace r) : Stops Char.isDigit r :=
  hr.imp fun _ hc => (Bool.or_eq_false_iff.1 hc).1

theorem stops_pointed {r : List Char} (hr : Stops isPlace r) (places : List Char) :
    Stops Char.isDigit (pointed places ++ r) := by
  cases places with
  | nil => exact stops_isDigit hr
  | cons c l => exact stops_cons.2 rfl

theorem splitDigits_append {l r : List Char} (hl : ∀ c ∈ l, c.isDigit)
    (hr : Stops Char.isDigit r) : splitDigits (l ++ r) = (l, r) := by
  rw [splitDigits, List.span_eq_takeWhile_dropWhile, takeWhile_append_of_stops hl hr,
    dropWhile_append_of_stops hl hr]

theorem splitFraction_pointed (hp : ∀ c ∈ places, c.isDigit) {r : List Char}
    (hr : Stops isPlace r) : splitFraction (pointed places ++ r) = (places, r) := by
  cases places with
  | nil =>
    cases r with
    | nil => rfl
    | cons c r =>
      have hc : c ≠ '.' := (Text.ne_of_tells rfl (stops_cons.1 hr)).symm
      simp [pointed, splitFraction, hc]
  | cons c l => exact splitDigits_append hp (stops_isDigit hr)

theorem decimal?_pointed (hw : Digits whole) (hp : ∀ c ∈ places, c.isDigit) {r : List Char}
    {e : Int} (hr : Stops isPlace r) (he : exponent? r = some e) :
    decimal? (whole ++ (pointed places ++ r)) = some (.ofDigits whole places e) := by
  simp only [decimal?, splitDigits_append hw.2 (stops_pointed hr places),
    splitFraction_pointed hp hr, hw.1, false_and, if_false, he, Option.map_some]

theorem splitSign_signed (hw : Digits whole) (minus : Bool) (r : List Char) :
    splitSign (signed minus (whole ++ r)) = (minus, whole ++ r) := by
  cases minus with
  | true => rfl
  | false =>
    cases whole with
    | nil => exact absurd rfl hw.1
    | cons c l =>
      have hc : c.isDigit := hw.2 c List.mem_cons_self
      have hminus : c ≠ '-' := Text.ne_of_tells hc rfl
      have hplus : c ≠ '+' := Text.ne_of_tells hc rfl
      simp [signed, splitSign, hminus, hplus]

/-- Digits, with or without decimal places and an exponent, stand for the number nearest to them. -/
theorem ofChars?_signed (hw : Digits whole) (hp : ∀ c ∈ places, c.isDigit) {r : List Char} {e : Int}
    (hr : Stops isPlace r) (he : exponent? r = some e) (minus : Bool) :
    ofChars? (signed minus (whole ++ (pointed places ++ r))) =
      some (.ofDecimal minus (.ofDigits whole places e)) := by
  simp only [ofChars?, splitSign_signed hw, decimal?_pointed hw hp hr he, Option.map_some,
    Option.some_or]
  rfl

theorem ofDecimal_of_isNearest {d : Decimal} (h : IsNearest d.value x.magnitude) :
    ofDecimal x.negative d = x := by
  rw [ofDecimal, Decimal.magnitude_eq_iff.2 h, ofParts_magnitude]

/-! ### Writing -/

/-- Says that `s` is digits, with or without decimal places and a minus sign, that stand for `x`. -/
def Spells (s : List Char) (x : Binary64) : Prop :=
  ∃ minus whole places, s = signed minus (whole ++ pointed places) ∧ Digits whole ∧
    (∀ c ∈ places, c.isDigit) ∧ ofDecimal minus (.ofDigits whole places 0) = x

namespace Spells

variable {s : List Char}

theorem ofChars? (h : Spells s x) : ofChars? s = some x := by
  obtain ⟨minus, whole, places, rfl, hw, hp, rfl⟩ := h
  have hchars := ofChars?_signed hw hp (stops_nil _) rfl minus
  rwa [List.append_nil] at hchars

/-- A numeral starts with a minus sign or a digit, so it is no word. -/
theorem stops_isWordStart (h : Spells s x) : Stops isWordStart s := by
  obtain ⟨minus, whole, places, rfl, hw, -, -⟩ := h
  exact stops_signed hw rfl (fun c hc => isWordStart_of_isDigit hc) minus _

theorem isBlank_eq_false (h : Spells s x) : ∀ c ∈ s, Text.isBlank c = false := by
  obtain ⟨minus, whole, places, rfl, hw, hp, -⟩ := h
  have hwhole : ∀ c ∈ whole, Text.isBlank c = false := fun c hc => isBlank_of_isDigit (hw.2 c hc)
  have hplaces : ∀ c ∈ pointed places, Text.isBlank c = false := by
    cases places with
    | nil => exact nofun
    | cons d l => exact List.forall_mem_cons.2 ⟨rfl, fun c hc => isBlank_of_isDigit (hp c hc)⟩
  have hdigits := List.forall_mem_append.2 ⟨hwhole, hplaces⟩
  cases minus with
  | true => exact List.forall_mem_cons.2 ⟨rfl, hdigits⟩
  | false => exact hdigits

end Spells

theorem spells_chars (hx : x.isFinite) : Spells (x.chars .plain) x := by
  have hm : x.magnitude < infinity := of_decide_eq_true hx
  obtain ⟨whole, places, htext, hw, hp, hnearest⟩ := finiteChars_plain hm.le
  refine ⟨x.negative, whole, places, ?_, hw, hp, ofDecimal_of_isNearest hnearest⟩
  have hnan : x.isNaN = false := decide_eq_false (by omega)
  simp only [chars, hnan, hx, signChars, htext, signed]
  cases x.negative <;> rfl

theorem value_toDigits_zero (n : Nat) :
    (Decimal.ofDigits (Nat.toDigits 10 n) ['0'] 0).value = n := by
  have hdigits : Nat.ofDigitChars 10 (Nat.toDigits 10 n ++ ['0']) 0 = 10 * n := by
    rw [Nat.ofDigitChars_append, Nat.ofDigitChars_ten_toDigits]
    rfl
  simp only [Decimal.ofDigits, Decimal.value, hdigits, List.length_singleton]
  push_cast
  ring

theorem spells_exactWholeText (hx : x.isWhole) : Spells x.exactWholeText.toList x := by
  obtain ⟨hfinite, hwhole⟩ := Bool.and_eq_true_iff.1 hx
  have hm : x.magnitude < infinity := of_decide_eq_true hfinite
  have hdvd : unitsOfOne ∣ units x.magnitude := Nat.dvd_of_mod_eq_zero (of_decide_eq_true hwhole)
  refine ⟨x.negative, Nat.toDigits 10 (units x.magnitude / unitsOfOne), ['0'], ?_,
    digits_toDigits _, List.forall_mem_singleton.2 rfl, ofDecimal_of_isNearest ?_⟩
  · rw [exactWholeText, String.toList_ofList, signChars]
    cases x.negative <;> rfl
  · rw [value_toDigits_zero, ← value_of_units_eq (Nat.div_mul_cancel hdvd).symm]
    exact isNearest_value hm.le

theorem toList_toString (k : Int) :
    (toString k).toList = signed (k < 0) (Nat.toDigits 10 k.natAbs) := by
  rw [Int.toString_eq_repr, Int.repr_eq_if]
  split
  · rename_i hk
    have habs : k.natAbs = k.toNat := by omega
    rw [Nat.toList_repr, habs, decide_eq_false (by omega)]
    rfl
  · rename_i hk
    have habs : k.natAbs = (-k).toNat := by omega
    rw [String.toList_append, Nat.toList_repr, habs, decide_eq_true (by omega)]
    rfl

theorem value_ofDigits_nil (whole : List Char) :
    (Decimal.ofDigits whole [] 0).value = (Nat.ofDigitChars 10 whole 0 : Nat) := by
  simp [Decimal.ofDigits, Decimal.value]

theorem spells_toString (k : Int) : Spells (toString k).toList (.ofInt k) := by
  refine ⟨(ofInt k).negative, Nat.toDigits 10 k.natAbs, [], ?_, digits_toDigits _, nofun,
    ofDecimal_of_isNearest ?_⟩
  · rw [toList_toString, negative_ofInt, pointed, List.append_nil]
  · rw [value_ofDigits_nil, Nat.ofDigitChars_ten_toDigits]
    exact isNearest_ofInt k

theorem magnitude_of_infinite {x : Binary64} (hnan : x.isNaN = false) (hx : x.isFinite = false) :
    x.magnitude = infinity := by
  have hle : ¬ infinity < x.magnitude := of_decide_eq_false hnan
  have hge : ¬ x.magnitude < infinity := of_decide_eq_false hx
  omega

/-! ### Integers -/

/-- A sign and the digits of an integer are read as that integer. -/
theorem signedDigits?_of_splitSign {s : List Char} {k : Int}
    (hs : splitSign s = (decide (k < 0), Nat.toDigits 10 k.natAbs)) : signedDigits? s = some k := by
  obtain ⟨hne, hall⟩ := digits_toDigits k.natAbs
  have hvalue : (if decide (k < 0) then -(k.natAbs : Int) else k.natAbs) = k := by
    simp only [decide_eq_true_eq]
    omega
  rw [signedDigits?, hs]
  dsimp only
  rw [if_pos ⟨hne, List.all_eq_true.2 hall⟩, Nat.ofDigitChars_ten_toDigits, hvalue]

theorem signedDigits?_toString (k : Int) : signedDigits? (toString k).toList = some k := by
  apply signedDigits?_of_splitSign
  rw [toList_toString, ← List.append_nil (Nat.toDigits 10 k.natAbs)]
  exact splitSign_signed (digits_toDigits _) _ _

/-- Digits are no integer if they do not go on to the end. -/
theorem signedDigits?_eq_none (hw : Digits whole) {r : List Char} (hr : r.all Char.isDigit = false)
    (minus : Bool) : signedDigits? (signed minus (whole ++ r)) = none := by
  rw [signedDigits?, splitSign_signed hw]
  refine if_neg fun ⟨_, hall⟩ => ?_
  rw [List.all_append, hr, Bool.and_false] at hall
  cases hall

/-! ### NaN -/

/-- Whether a text is the word `nan` in any letter case, with or without a sign. -/
def namesNaN (s : List Char) : Bool := String.ofList ((splitSign s).2.map Char.toLower) = "nan"

theorem toLower_of_isDigit {c : Char} (h : c.isDigit) : c.toLower = c := by
  have hrange := RuleText.toNat_of_isDigit h
  refine dif_neg fun hupper => ?_
  have hA : 0x41 ≤ c.toNat := hupper.1
  omega

/-- The word `nan` does not start as digits or a point do. -/
theorem decimal?_of_nan {s : List Char} (h : String.ofList (s.map Char.toLower) = "nan") :
    decimal? s = none := by
  have hmap : s.map Char.toLower = ['n', 'a', 'n'] := by
    rw [← String.toList_ofList (l := s.map Char.toLower), h]
    rfl
  obtain ⟨c, r, rfl, hc, -⟩ := List.map_eq_cons_iff.1 hmap
  have hdigit : c.isDigit = false := by
    refine Bool.eq_false_iff.2 fun hd => ?_
    rw [toLower_of_isDigit hd] at hc
    subst hc
    cases hd
  have hpoint : c ≠ '.' := by
    rintro rfl
    cases hc
  have hdigits : splitDigits (c :: r) = ([], c :: r) :=
    splitDigits_append (l := []) nofun (stops_cons.2 hdigit)
  have hfraction : splitFraction (c :: r) = ([], c :: r) := by simp [splitFraction, hpoint]
  simp [decimal?, hdigits, hfraction]

theorem isNaN_quietNaN (minus : Bool) : (ofParts minus quietNaN).isNaN = true := by
  cases minus <;> decide

/-- A text reads as NaN just if it is the name of NaN. -/
theorem any_isNaN_ofChars? (s : List Char) : (ofChars? s).any isNaN = namesNaN s := by
  rw [ofChars?, namesNaN]
  obtain ⟨minus, word⟩ := splitSign s
  dsimp only
  cases hdecimal : decimal? word with
  | some d =>
    have hnan : String.ofList (word.map Char.toLower) ≠ "nan" := by
      intro h
      rw [decimal?_of_nan h] at hdecimal
      cases hdecimal
    rw [Option.map_some, Option.some_or, Option.map_some, Option.any_some, decide_eq_false hnan]
    exact isNaN_ofParts (Decimal.isNearest_magnitude d).le_infinity
  | none =>
    rw [Option.map_none, Option.none_or, wordMagnitude?]
    have hinfinity : ∀ w ≠ "nan", String.ofList (word.map Char.toLower) = w →
        ((some infinity).map (ofParts minus)).any isNaN =
          decide (String.ofList (word.map Char.toLower) = "nan") := by
      rintro w hw rfl
      rw [Option.map_some, Option.any_some, isNaN_ofParts (Nat.le_refl infinity),
        decide_eq_false hw]
    split
    · rename_i hword
      exact hinfinity "inf" (by decide) hword
    · rename_i hword
      exact hinfinity "infinity" (by decide) hword
    · rename_i hword
      rw [Option.map_some, Option.any_some, isNaN_quietNaN, hword]
      exact (decide_eq_true rfl).symm
    · rename_i hword
      exact (decide_eq_false hword).symm

end Lineup.Binary64
