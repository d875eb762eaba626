import Lineup.Proofs.Binary64.Reading

/-!
# Numerals

A numeral is a number in the parts in which it is written, with or without decimal places and an
exponent. It is read as the float nearest to it (`Numeral.ofChars?_chars`), and as no integer if it
has a point or an exponent. Every finite float has such a one in each style that marks whole numbers
by a point (`Numeral.exists_of_isFinite`), so none of these styles writes two floats alike.
-/

namespace Lineup

open Decimal (Digits pointed pointed_of_ne_nil digits_toDigits head?_toDigits)
open RuleText (stops_signed)
open RuleText.Grammar (signed)
open Binary64 (isPlace)
open Text (Stops stops_nil stops_cons ne_of_tells)

/-- Says that a whole number is marked by a decimal place, and that a positive exponent has no sign
or a plus sign. -/
structure NumberStyle.Marks (style : NumberStyle) : Prop where
  wholeMark : style.wholeMark = ['.', '0']
  plus : style.plus = [] ∨ style.plus = ['+']

/-- A number in the parts in which it is written, where a zero at the start stands alone. -/
structure Numeral where
  negative : Bool
  whole : List Char
  places : List Char
  plus : List Char
  power : Option Int
  digits : Digits whole
  zero : whole = ['0'] ∨ whole.head? ≠ some '0'
  isDigit : ∀ c ∈ places, c.isDigit
  isPlus : plus = [] ∨ plus = ['+']

namespace Numeral

/-! ### Exponents -/

/-- The exponent behind the digits of a number, with its sign. -/
def powerChars (plus : List Char) : Option Int → List Char
  | none => []
  | some p => 'e' :: Decimal.exponentText plus p

theorem signedDigits?_exponentText {plus : List Char} (hplus : plus = [] ∨ plus = ['+']) (p : Int) :
    Binary64.signedDigits? (Decimal.exponentText plus p) = some p := by
  apply Binary64.signedDigits?_of_splitSign
  rw [Decimal.exponentText]
  split
  · rename_i hp
    rw [decide_eq_true hp]
    rfl
  · rename_i hp
    rw [decide_eq_false hp]
    rcases hplus with rfl | rfl
    · have hsign := Binary64.splitSign_signed (digits_toDigits p.natAbs) false []
      rwa [List.append_nil] at hsign
    · rfl

theorem exponent?_powerChars {plus : List Char} (hplus : plus = [] ∨ plus = ['+'])
    (power : Option Int) : Binary64.exponent? (powerChars plus power) = some (power.getD 0) := by
  cases power with
  | none => rfl
  | some p => exact signedDigits?_exponentText hplus p

theorem stops_powerChars (plus : List Char) (power : Option Int) {r : List Char}
    (hr : Stops isPlace r) : Stops isPlace (powerChars plus power ++ r) := by
  cases power with
  | none => exact hr
  | some p => exact stops_cons.2 rfl

/-! ### Reading -/

variable (n : Numeral)

def chars : List Char :=
  signed n.negative (n.whole ++ (pointed n.places ++ powerChars n.plus n.power))

def decimal : Decimal := .ofDigits n.whole n.places (n.power.getD 0)

/-- Says that a numeral has a point or an exponent. -/
def IsFloat : Prop := n.places ≠ [] ∨ n.power ≠ none

theorem chars_append (r : List Char) : n.chars ++ r =
    signed n.negative (n.whole ++ (pointed n.places ++ (powerChars n.plus n.power ++ r))) := by
  rw [chars]
  cases n.negative <;> simp [signed]

/-- A numeral starts with a minus sign or a digit. -/
theorem stops_chars {p : Char → Bool} (hminus : p '-' = false)
    (hp : ∀ c, c.isDigit → p c = false) (r : List Char) : Stops p (n.chars ++ r) := by
  rw [chars_append]
  exact stops_signed n.digits hminus hp _ _

theorem ofChars?_chars : Binary64.ofChars? n.chars = some (.ofDecimal n.negative n.decimal) := by
  have hstop := stops_powerChars n.plus n.power (stops_nil _)
  rw [List.append_nil] at hstop
  exact Binary64.ofChars?_signed n.digits n.isDigit hstop (exponent?_powerChars n.isPlus _) _

theorem signedDigits?_chars_eq_none (h : n.IsFloat) : Binary64.signedDigits? n.chars = none := by
  refine Binary64.signedDigits?_eq_none n.digits ?_ n.negative
  rw [List.all_append]
  rcases h with hplaces | hpower
  · rw [pointed_of_ne_nil hplaces]
    rfl
  · obtain ⟨p, hp⟩ := Option.ne_none_iff_exists'.1 hpower
    rw [hp]
    exact Bool.and_false _

/-! ### Integers -/

/-- The digits of a number start with a zero only if they are nothing but that. -/
theorem toDigits_eq_or (k : Nat) :
    Nat.toDigits 10 k = ['0'] ∨ (Nat.toDigits 10 k).head? ≠ some '0' := by
  by_cases hk : k = 0
  · exact .inl (by rw [hk, Nat.toDigits_zero])
  · exact .inr (head?_toDigits hk)

def ofInt (k : Int) : Numeral :=
  ⟨k < 0, Nat.toDigits 10 k.natAbs, [], [], none, digits_toDigits _, toDigits_eq_or _,
    List.forall_mem_nil _, .inl rfl⟩

theorem chars_ofInt (k : Int) : (ofInt k).chars = (toString k).toList := by
  rw [Binary64.toList_toString, chars, ofInt, pointed, powerChars, List.append_nil, List.append_nil]

/-! ### Floats -/

variable {style : NumberStyle}

/-- Digits in full or with an exponent make a numeral with a point or an exponent. -/
theorem exists_of_decimal (hstyle : style.Marks) {d : Decimal} (hd : d.significand ≠ 0)
    (negative : Bool) :
    ∃ n : Numeral, n.negative = negative ∧ n.chars = signed negative (d.chars style) ∧
      n.decimal.value = d.value ∧ n.IsFloat := by
  have hdigits := digits_toDigits d.significand
  have hhead := head?_toDigits hd
  have hvalue := Nat.ofDigitChars_ten_toDigits (n := d.significand)
  rw [Decimal.chars]
  generalize Nat.toDigits 10 d.significand = digits at hdigits hhead hvalue ⊢
  split
  · -- in full, with a point even where there are no decimal places
    obtain ⟨whole, places, htext, hw, hp, hv, hz, hf⟩ :=
      Decimal.inFull_spec hdigits 1 (digits.length + d.exponent)
    refine ⟨⟨negative, whole, places, style.plus, none, hw,
      hz.imp_right fun h => h.trans_ne hhead, hp, hstyle.plus⟩, rfl, ?_, ?_,
      .inl (hf Nat.one_ne_zero)⟩
    · rw [chars, powerChars, List.append_nil, ← htext, hstyle.wholeMark]
      rfl
    · rw [decimal, Option.getD_none, hv, hvalue, add_sub_cancel_left]
      rfl
  · -- the first digit, the others behind a point, and an exponent
    cases digits with
    | nil => exact absurd rfl hdigits.1
    | cons c l =>
      have hplaces : ∀ c ∈ l, c.isDigit := fun _ hc => hdigits.2 _ (List.mem_cons_of_mem _ hc)
      have hfirst : Digits [c] :=
        ⟨List.cons_ne_nil _ _, List.forall_mem_singleton.2 (hdigits.2 _ List.mem_cons_self)⟩
      refine ⟨⟨negative, [c], l, style.plus, some ((c :: l).length + d.exponent - 1), hfirst,
        .inr hhead, hplaces, hstyle.plus⟩, rfl, ?_, ?_, .inr (Option.some_ne_none _)⟩
      · rw [chars, Decimal.withExponent]
        cases l <;> rfl
      · have hexp : ((c :: l).length + d.exponent - 1 : Int) - l.length = d.exponent := by
          rw [List.length_cons]
          omega
        rw [decimal, Option.getD_some, Decimal.ofDigits, hexp, List.singleton_append, hvalue]

/-- Every finite float has a numeral, to which it is the nearest number. -/
theorem exists_of_isFinite (hstyle : style.Marks) {x : Binary64} (hx : x.isFinite) :
    ∃ n : Numeral,
      n.chars = x.chars style ∧ Binary64.ofDecimal n.negative n.decimal = x ∧ n.IsFloat := by
  have hm : x.magnitude < Binary64.infinity := of_decide_eq_true hx
  have hnan : x.isNaN = false := decide_eq_false (by omega)
  have hchars : x.chars style =
      signed x.negative (Binary64.finiteChars style x.magnitude) := by
    simp only [Binary64.chars, hnan, hx, Binary64.signChars]
    cases x.negative <;> rfl
  rw [hchars, Binary64.finiteChars]
  split
  · rename_i hzero
    have hdigits : Digits ['0'] := ⟨List.cons_ne_nil _ _, List.forall_mem_singleton.2 rfl⟩
    refine ⟨⟨x.negative, ['0'], ['0'], [], none, hdigits, .inl rfl, hdigits.2, .inl rfl⟩, ?_,
      Binary64.ofDecimal_of_isNearest ?_, .inl hdigits.1⟩
    · rw [hstyle.wholeMark]
      rfl
    · rw [hzero]
      exact Decimal.magnitude_eq_iff.1 rfl
  · rename_i hpos
    have hnearest := Binary64.isNearest_shortest style.tie hm.le
    have hd := Binary64.significand_shortest_ne_zero style.tie hm.le hpos
    obtain ⟨n, hnegative, htext, hvalue, hfloat⟩ := exists_of_decimal hstyle hd x.negative
    refine ⟨n, htext, ?_, hfloat⟩
    rw [hnegative]
    exact Binary64.ofDecimal_of_isNearest (hvalue ▸ hnearest)

theorem notMem_of_isDigit {c : Char} {l : List Char} (hl : ∀ d ∈ l, d.isDigit)
    (hdigit : c.isDigit = false) : c ∉ l := fun hmem =>
  ne_of_tells (hl c hmem) hdigit rfl

/-- Nothing but digits, a sign and its mark is in an exponent. -/
theorem notMem_powerChars {plus : List Char} (hplus : plus = [] ∨ plus = ['+'])
    (power : Option Int) {c : Char} (hdigit : c.isDigit = false) (hc : c ∉ ['-', '+', 'e']) :
    c ∉ powerChars plus power := by
  simp only [List.mem_cons, List.not_mem_nil, or_false, not_or] at hc
  obtain ⟨hminus, hsign, hmark⟩ := hc
  cases power with
  | none => exact List.not_mem_nil
  | some p =>
    have hdigits := notMem_of_isDigit (digits_toDigits p.natAbs).2 hdigit
    have hsigned : c ∉ (if p < 0 then ['-'] else plus) := by
      split
      · exact mt List.mem_singleton.1 hminus
      · rcases hplus with rfl | rfl
        · exact List.not_mem_nil
        · exact mt List.mem_singleton.1 hsign
    simp [powerChars, Decimal.exponentText, hmark, hsigned, hdigits]

/-- Nothing but digits, points, signs and the mark of an exponent is in a numeral. -/
theorem notMem_chars {c : Char} (hplace : isPlace c = false) (hc : c ∉ ['-', '+', 'e']) :
    c ∉ n.chars := by
  obtain ⟨hdigit, hpoint⟩ := Bool.or_eq_false_iff.1 hplace
  have hpointed : c ∉ pointed n.places := by
    cases hp : n.places with
    | nil => exact List.not_mem_nil
    | cons d l =>
      rw [pointed_of_ne_nil (List.cons_ne_nil d l), ← hp, List.mem_cons, not_or]
      exact ⟨of_decide_eq_false hpoint, notMem_of_isDigit n.isDigit hdigit⟩
  have hall : c ∉ n.whole ++ (pointed n.places ++ powerChars n.plus n.power) := by
    simp only [List.mem_append, not_or]
    exact ⟨notMem_of_isDigit n.digits.2 hdigit, hpointed,
      notMem_powerChars n.isPlus n.power hdigit hc⟩
  rw [chars]
  cases n.negative with
  | true => exact fun h => (List.mem_cons.1 h).elim (List.ne_of_not_mem_cons hc) hall
  | false => exact hall

end Numeral

/-! ### Texts of floats -/

namespace Binary64

variable {style : NumberStyle}

theorem ofChars?_chars (hstyle : style.Marks) {x : Binary64} (hnan : x.isNaN = false) :
    ofChars? (x.chars style) = some x := by
  cases hx : x.isFinite with
  | true =>
    obtain ⟨n, hchars, hvalue, -⟩ := Numeral.exists_of_isFinite hstyle hx
    rw [← hchars, n.ofChars?_chars, hvalue]
  | false =>
    have hchars : x.chars style = x.signChars ++ "inf".toList := by
      simp only [chars, hnan, hx]
      rfl
    rw [hchars, signChars, ← x.ofParts_magnitude, magnitude_of_infinite hnan hx]
    cases x.negative <;> rfl

theorem chars_of_isNaN (style : NumberStyle) {x : Binary64} (hnan : x.isNaN) :
    x.chars style = "NaN".toList := if_pos hnan

theorem any_isNaN_chars (hstyle : style.Marks) (x : Binary64) :
    (ofChars? (x.chars style)).any isNaN = x.isNaN := by
  cases hx : x.isNaN with
  | true =>
    rw [chars_of_isNaN style hx]
    exact isNaN_quietNaN false
  | false =>
    rw [ofChars?_chars hstyle hx]
    exact hx

/-- No two floats have one text, NaN aside, whose bits are not shown. -/
theorem chars_eq_iff (hstyle : style.Marks) {x y : Binary64} :
    x.chars style = y.chars style ↔ x = y ∨ x.isNaN ∧ y.isNaN := by
  constructor
  · intro h
    have hnan : x.isNaN = y.isNaN := by
      rw [← any_isNaN_chars hstyle x, h, any_isNaN_chars hstyle y]
    cases hx : x.isNaN with
    | true => exact .inr ⟨rfl, hnan ▸ hx⟩
    | false =>
      have hread := ofChars?_chars hstyle hx
      rw [h, ofChars?_chars hstyle (hnan ▸ hx)] at hread
      exact .inl (Option.some.inj hread).symm
  · rintro (rfl | ⟨hx, hy⟩)
    · rfl
    · rw [chars_of_isNaN style hx, chars_of_isNaN style hy]

theorem notMem_chars (hstyle : style.Marks) {c : Char} (hplace : isPlace c = false)
    (hc : c ∉ ['-', '+', 'e', 'N', 'a', 'i', 'n', 'f']) (x : Binary64) : c ∉ x.chars style := by
  cases hx : x.isFinite with
  | true =>
    obtain ⟨n, hchars, -, -⟩ := Numeral.exists_of_isFinite hstyle hx
    rw [← hchars]
    exact n.notMem_chars hplace fun hmem => hc (List.mem_append_left _ hmem)
  | false =>
    have hnan : "NaN".toList ⊆ ['-', '+', 'e', 'N', 'a', 'i', 'n', 'f'] := by decide
    have hinf : ∀ b : Bool, (if b then ['-'] else []) ++ "inf".toList ⊆
        ['-', '+', 'e', 'N', 'a', 'i', 'n', 'f'] := by decide
    rw [chars, hx]
    split
    · exact fun hmem => hc (hnan hmem)
    · exact fun hmem => hc (hinf x.negative hmem)

end Binary64

end Lineup
