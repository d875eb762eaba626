import Lineup.Json.Compact.Reading
import Lineup.Proofs.Binary64.Numerals

/-!
# Numbers of JSON

JSON writes numbers as numerals (`Numeral`). One is read as one number wherever nothing follows
that goes on with it (`number?_chars`). Integers and finite floats are told apart, as only the
numerals of floats have a point or an exponent.
-/

namespace Lineup.Json.Compact

open Decimal (Digits pointed pointed_of_ne_nil digits_toDigits)
open Numeral (powerChars stops_powerChars)
open RuleText (stops_digits)
open RuleText.Grammar (signed)
open Binary64 (isPlace stops_isDigit stops_pointed)
open Text (Stops stops_cons ne_of_tells takeWhile_append_of_stops dropWhile_append_of_stops)

/-! ### Readers of parts -/

/-- Whether a character, behind a number, could belong to it. -/
def isNumberPart (c : Char) : Bool := isPlace c || c = 'e' || c = 'E'

theorem stops_isPlace {r : List Char} (hr : Stops isNumberPart r) : Stops isPlace r :=
  hr.imp fun _ hc => (Bool.or_eq_false_iff.1 (Bool.or_eq_false_iff.1 hc).1).1

theorem digits?_append {l r : List Char} (hl : Digits l) (hr : Stops Char.isDigit r) :
    digits? (l ++ r) = some (l, r) := by
  rw [digits?, takeWhile_append_of_stops hl.2 hr, dropWhile_append_of_stops hl.2 hr, if_neg hl.1]

theorem minus_signed {l : List Char} (hl : Digits l) (negative : Bool) (r : List Char) :
    minus (signed negative (l ++ r)) = (signed negative [], l ++ r) := by
  cases negative with
  | true => rfl
  | false =>
    have hstop : Stops (fun c => c = '-') (l ++ r) :=
      stops_digits hl (fun _ hc => decide_eq_false (ne_of_tells hc rfl)) r
    change minus (l ++ r) = ([], l ++ r)
    unfold minus
    split
    · rename_i h
      rw [h] at hstop
      cases stops_cons.1 hstop
    · rfl

theorem whole?_append {l r : List Char} (hl : Digits l) (hzero : l = ['0'] ∨ l.head? ≠ some '0')
    (hr : Stops Char.isDigit r) : whole? (l ++ r) = some (l, r) := by
  rcases hzero with rfl | hzero
  · rfl
  · cases l with
    | nil => exact absurd rfl hl.1
    | cons c l =>
      have hc : c ≠ '0' := fun h => hzero (congrArg some h)
      rw [List.cons_append, whole?]
      · exact digits?_append hl hr
      · exact fun _ h => hc (List.head_eq_of_cons_eq h)

theorem fraction?_pointed {places r : List Char} (hp : ∀ c ∈ places, c.isDigit)
    (hr : Stops isPlace r) : fraction? (pointed places ++ r) = some (pointed places, r) := by
  by_cases hne : places = []
  · subst hne
    cases r with
    | nil => rfl
    | cons c r =>
      have hc : c ≠ '.' := (ne_of_tells rfl (stops_cons.1 hr)).symm
      rw [pointed, List.nil_append, fraction?]
      exact fun _ h => hc (List.head_eq_of_cons_eq h)
  · rw [pointed_of_ne_nil hne, List.cons_append, fraction?,
      digits?_append ⟨hne, hp⟩ (stops_isDigit hr)]
    rfl

theorem exponentSign_exponentText {plus : List Char} (hplus : plus = [] ∨ plus = ['+']) (p : Int)
    (r : List Char) :
    exponentSign (Decimal.exponentText plus p ++ r) =
      (if p < 0 then ['-'] else plus, Nat.toDigits 10 p.natAbs ++ r) := by
  rw [Decimal.exponentText]
  split
  · rfl
  · rcases hplus with rfl | rfl
    · obtain ⟨hne, hdigit⟩ := digits_toDigits p.natAbs
      obtain ⟨c, l, hl⟩ := List.exists_cons_of_ne_nil hne
      have hc : c.isDigit := hdigit c (hl ▸ List.mem_cons_self)
      rw [hl, List.nil_append, List.cons_append, exponentSign]
      · exact fun _ h => ne_of_tells hc rfl (List.head_eq_of_cons_eq h)
      · exact fun _ h => ne_of_tells hc rfl (List.head_eq_of_cons_eq h)
    · rfl

theorem exponent?_powerChars {plus : List Char} (hplus : plus = [] ∨ plus = ['+'])
    (power : Option Int) {r : List Char} (hr : Stops isNumberPart r) :
    exponent? (powerChars plus power ++ r) = some (powerChars plus power, r) := by
  cases power with
  | none =>
    cases r with
    | nil => rfl
    | cons c r =>
      have hc : ¬ (c = 'e' ∨ c = 'E') := not_or.2
        ⟨(ne_of_tells rfl (stops_cons.1 hr)).symm, (ne_of_tells rfl (stops_cons.1 hr)).symm⟩
      rw [powerChars, List.nil_append, exponent?, if_neg hc]
  | some p =>
    rw [powerChars, List.cons_append, exponent?, if_pos (.inl rfl),
      exponentSign_exponentText hplus, digits?_append (digits_toDigits _)
      (stops_isDigit (stops_isPlace hr)), Decimal.exponentText]
    rfl

theorem number?_chars (n : Numeral) {r : List Char} (hr : Stops isNumberPart r) :
    number? (n.chars ++ r) = some (n.chars, r) := by
  have hplace := stops_powerChars n.plus n.power (stops_isPlace hr)
  rw [n.chars_append, number?, minus_signed n.digits,
    whole?_append n.digits n.zero (stops_pointed hplace _)]
  dsimp only
  rw [fraction?_pointed n.isDigit hplace]
  dsimp only
  rw [exponent?_powerChars n.isPlus n.power hr, Numeral.chars]
  cases n.negative <;> simp [signed]

theorem numberOfChars?_ofInt (n : Int64) :
    numberOfChars? (Numeral.ofInt n.toInt).chars = some (int n) := by
  have hread := Binary64.signedDigits?_toString n.toInt
  have hzero : (toString n.toInt).toList ≠ ['-', '0'] := by
    intro h
    rw [h] at hread
    have hk : n.toInt = 0 := (Option.some.inj hread).symm
    rw [hk] at h
    cases h
  rw [Numeral.chars_ofInt, numberOfChars?, if_neg hzero, hread, Option.bind_some, int64?_toInt]

theorem marks_floatStyle : floatStyle.Marks := ⟨rfl, .inr rfl⟩

/-- A finite float is read from its numeral, and it is not taken for an integer. -/
theorem exists_numeral {x : Binary64} (hx : x.isFinite) : ∃ n : Numeral,
    n.chars = floatChars x ∧ numberOfChars? n.chars = some (float x) := by
  obtain ⟨n, hchars, hvalue, hfloat⟩ := Numeral.exists_of_isFinite marks_floatStyle hx
  refine ⟨n, by rw [hchars, floatChars, if_pos hx], ?_⟩
  rw [numberOfChars?, n.signedDigits?_chars_eq_none hfloat, Option.bind_none, ite_self,
    n.ofChars?_chars, hvalue]
  rfl

end Lineup.Json.Compact
