import Lineup.Proofs.Value.Equality

/-!
# Texts of values

The text of a value that is no string tells which value it is, as it can be read back
(`Value.ofText?_text`). Digits to the end are an integer: the digits of a float are followed by a
point, because the numbers that are nearest to integers are whole (`Binary64.isWhole_of_digits`) and
the texts of whole ones are given a place after a point.
-/

namespace Lineup

/-! ### Floats are no integers -/

namespace Binary64

open Decimal (Digits pointed pointed_of_ne_nil digits_toDigits)
open RuleText.Grammar (signed)

variable {whole places : List Char} {x : Binary64}

/-- What digits without a point stand for is whole, if it is finite. -/
theorem isWhole_of_digits {minus : Bool} (h : ofDecimal minus (.ofDigits whole [] 0) = x)
    (hx : x.isFinite) : x.isWhole := by
  have hnearest := Decimal.isNearest_magnitude (.ofDigits whole [] 0)
  have hmagnitude : (Decimal.ofDigits whole [] 0).magnitude = x.magnitude := by
    rw [← h, ofDecimal, magnitude_ofParts (hnearest.le_infinity.trans_lt (by decide))]
  rw [value_ofDigits_nil, hmagnitude] at hnearest
  rw [isWhole, hx, Bool.true_and]
  exact decide_eq_true (Nat.mod_eq_zero_of_dvd (unitsOfOne_dvd_of_isNearest hnearest))

theorem signedDigits?_pointed (hw : Digits whole) (hp : places ≠ []) (minus : Bool) :
    signedDigits? (signed minus (whole ++ pointed places)) = none := by
  refine signedDigits?_eq_none hw ?_ minus
  rw [pointed_of_ne_nil hp]
  rfl

theorem signedDigits?_exactWholeText (x : Binary64) :
    signedDigits? x.exactWholeText.toList = none := by
  have hplaces := signedDigits?_pointed
    (digits_toDigits (units x.magnitude / unitsOfOne)) (List.cons_ne_nil '0' []) x.negative
  rw [exactWholeText, String.toList_ofList, signChars]
  cases hx : x.negative <;> rwa [hx] at hplaces

/-- A number that is not whole is never written without a point. -/
theorem signedDigits?_chars (hx : x.isFinite) (hwhole : x.isWhole = false) :
    signedDigits? (x.chars .plain) = none := by
  obtain ⟨minus, whole, places, htext, hw, -, hvalue⟩ := spells_chars hx
  rw [htext]
  refine signedDigits?_pointed hw ?_ minus
  rintro rfl
  exact Bool.eq_false_iff.1 hwhole (isWhole_of_digits hvalue hx)

end Binary64

namespace Value

/-! ### Reading back -/

/-- The value that a word is the text of. -/
def ofWord? (s : String) : Option Value :=
  if s = "null" then some null
  else if s = "True" then some (bool true)
  else if s = "False" then some (bool false)
  else none

/-- The value, other than a string, that has the text `s`. An integer is looked for first, since a
float would be read from its digits too. -/
def ofText? (s : String) : Option Value :=
  (((Binary64.signedDigits? s.toList).bind int64?).map int).or
    (((string s).asNumber?.map float).or (ofWord? s))

theorem signedDigits?_text_float (x : Binary64) :
    Binary64.signedDigits? (float x).text.toList = none := by
  rw [text]
  split
  · exact x.signedDigits?_exactWholeText
  · rename_i hwhole
    rw [Binary64.text, String.toList_ofList]
    cases hx : x.isFinite with
    | true => exact Binary64.signedDigits?_chars hx (Bool.eq_false_iff.2 hwhole)
    | false =>
      rw [Binary64.chars, hx]
      split
      · rfl
      · rw [Binary64.signChars]
        cases x.negative <;> rfl

/-- The text of a value leads back to it, or to one that is equal to it. -/
theorem ofText?_text {v : Value} (h : v.variant ≠ .string) :
    ∃ w, ofText? v.text = some w ∧ w == v := by
  cases v with
  | null => exact ⟨null, rfl, rfl⟩
  | bool b => cases b <;> exact ⟨_, rfl, rfl⟩
  | int n =>
    refine ⟨int n, ?_, BEq.rfl⟩
    rw [ofText?, text, Binary64.signedDigits?_toString, Option.bind_some, int64?_toInt]
    rfl
  | float x =>
    obtain ⟨y, hy, hxy⟩ := asNumber?_text_float x
    have heq : float x == float y := hxy
    refine ⟨float y, ?_, BEq.symm heq⟩
    rw [ofText?, signedDigits?_text_float, hy]
    rfl
  | string s => exact absurd rfl h

theorem beq_of_text_eq {a b : Value} (ha : a.variant ≠ .string) (hb : b.variant ≠ .string)
    (h : a.text = b.text) : a == b := by
  obtain ⟨v, hv, hva⟩ := ofText?_text ha
  obtain ⟨w, hw, hwb⟩ := ofText?_text hb
  rw [h, hw] at hv
  cases hv
  exact BEq.trans (BEq.symm hva) hwb

end Value

theorem Comparison.text_eq_of_holds {o : BoolOrdering} {x : Context} {t : Term} {s : String}
    {v : Value} (hv : x.subject? t = some v) (h : (t.compared .eq (.string s)).holds o x) :
    v.text = s := by
  rw [Term.compared, holds, hv] at h
  exact Std.compare_eq_iff_eq.1 (Ordering.isEq_iff_eq_eq.1 h)

/-- **Texts do not collide**: two values that are no strings have one text only if they are equal,
and so of one variant. A string literal is therefore equal to at most one such value, wherever the
value is found. -/
theorem Value.text_faithful :
    (∀ a b : Value, a.variant ≠ .string → b.variant ≠ .string → a.text = b.text →
        a == b ∧ a.variant = b.variant) ∧
      ∀ (o : BoolOrdering) (s : String) (x y : Context) (t u : Term) (a b : Value),
        x.subject? t = some a → y.subject? u = some b →
        a.variant ≠ .string → b.variant ≠ .string →
        (t.compared .eq (.string s)).holds o x → (u.compared .eq (.string s)).holds o y →
        a == b := by
  constructor
  · intro a b ha hb htext
    have heq := beq_of_text_eq ha hb htext
    exact ⟨heq, variant_eq_of_beq heq⟩
  · intro o s x y t u a b hx hy ha hb hholds hholds'
    have hleft := Comparison.text_eq_of_holds hx hholds
    have hright := Comparison.text_eq_of_holds hy hholds'
    exact beq_of_text_eq ha hb (hleft.trans hright.symm)

/-- A literal that two items satisfy by NaN of different bits, which are equal although they do not
compare so. Seven compares equal to `7.0`, but no literal is equal to both. -/
theorem Value.text_faithful_nan :
    Comparison.holds .reject ⟨.ofList [("v", .float (.ofParts false Binary64.quietNaN))], none, 0⟩
        ((Term.named "v").compared .eq (.string "NaN")) ∧
      Comparison.holds .reject
        ⟨.empty, some [.ofList [("w", .float (.ofParts true 0x7ff0000000000001))]], 0⟩
        (((Term.named "w").pinned 0).compared .eq (.string "NaN")) ∧
      Value.float (.ofParts false Binary64.quietNaN) ==
        Value.float (.ofParts true 0x7ff0000000000001) ∧
      (Value.int 7).text ≠ (Value.float (.ofInt 7)).text := by
  obtain ⟨htexts, hliterals⟩ := Value.text_faithful
  have hleft : Comparison.holds .reject
      ⟨.ofList [("v", .float (.ofParts false Binary64.quietNaN))], none, 0⟩
      ((Term.named "v").compared .eq (.string "NaN")) := by
    decide +kernel
  have hright : Comparison.holds .reject
      ⟨.empty, some [.ofList [("w", .float (.ofParts true 0x7ff0000000000001))]], 0⟩
      (((Term.named "w").pinned 0).compared .eq (.string "NaN")) := by
    decide +kernel
  refine ⟨hleft, hright, hliterals _ _ _ _ _ _ _ _ rfl rfl nofun nofun hleft hright, ?_⟩
  intro h
  cases (htexts (.int 7) (.float (.ofInt 7)) nofun nofun h).2

end Lineup
