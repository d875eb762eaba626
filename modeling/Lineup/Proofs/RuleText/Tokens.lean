import Lineup.Proofs.RuleText.Grammar

/-!
# Reading tokens

What the readers of tokens find behind blanks, in terms of the grammar. A word is found if and only
if it is there. Other tokens are found wherever they are there and what follows does not go on with
them.
-/

namespace Lineup.RuleText

open Text (skipBlanks Blanks Stops stops_cons stops_nil blanks_iff isBlank isBlank_of_graphic
  takeWhile_spec takeWhile_append_of_stops dropWhile_append_of_stops stops_of_skipBlanks
  ne_of_tells)
open Decimal (Digits pointed pointed_of_ne_nil)
open Grammar

/-! ### Kinds of characters -/

theorem toNat_of_isAlpha {c : Char} (h : c.isAlpha) :
    (0x41 ≤ c.toNat ∧ c.toNat ≤ 0x5a) ∨ (0x61 ≤ c.toNat ∧ c.toNat ≤ 0x7a) := by
  rcases Bool.or_eq_true_iff.1 h with h | h
  · obtain ⟨hlow, hhigh⟩ := of_decide_eq_true h
    exact .inl ⟨UInt32.le_iff_toNat_le.1 hlow, UInt32.le_iff_toNat_le.1 hhigh⟩
  · obtain ⟨hlow, hhigh⟩ := Bool.and_eq_true_iff.1 h
    exact .inr ⟨UInt32.le_iff_toNat_le.1 (of_decide_eq_true hlow),
      UInt32.le_iff_toNat_le.1 (of_decide_eq_true hhigh)⟩

theorem toNat_of_isDigit {c : Char} (h : c.isDigit) : 0x30 ≤ c.toNat ∧ c.toNat ≤ 0x39 :=
  Char.isDigit_iff_toNat.1 h

theorem isBlank_of_isWordPart {c : Char} (h : isWordPart c) : isBlank c = false := by
  have hrange : 0x30 ≤ c.toNat ∧ c.toNat ≤ 0x7a := by
    rw [isWordPart, Char.isAlphanum, Bool.or_eq_true, Bool.or_eq_true, decide_eq_true_eq] at h
    rcases h with (h | h) | rfl
    · have := toNat_of_isAlpha h
      omega
    · have := toNat_of_isDigit h
      omega
    · decide
  exact isBlank_of_graphic (by omega) (by omega)

theorem isWordPart_of_isWordStart {c : Char} (h : isWordStart c) : isWordPart c := by
  simp only [isWordStart, isWordPart, Char.isAlphanum, Bool.or_eq_true] at h ⊢
  exact h.imp_left .inl

theorem isWordPart_of_isDigit {c : Char} (h : c.isDigit) : isWordPart c := by
  simp [isWordPart, Char.isAlphanum, h]

theorem isBlank_of_isDigit {c : Char} (h : c.isDigit) : isBlank c = false :=
  isBlank_of_isWordPart (isWordPart_of_isDigit h)

theorem isDigit_of_isWordStart {c : Char} (h : isWordStart c) : c.isDigit = false := by
  rw [isWordStart, Bool.or_eq_true, decide_eq_true_eq] at h
  rw [Bool.eq_false_iff]
  intro hd
  have hdigit := toNat_of_isDigit hd
  rcases h with h | rfl
  · have := toNat_of_isAlpha h
    omega
  · cases hd

theorem isWordStart_of_isDigit {c : Char} (h : c.isDigit) : isWordStart c = false := by
  rw [Bool.eq_false_iff]
  intro hw
  rw [isDigit_of_isWordStart hw] at h
  cases h

/-! ### Marks and words -/

theorem mark_iff {m : String} {s r : List Char} (h : Stops isBlank (m.toList ++ r)) :
    Mark m s r ↔ skipBlanks s = m.toList ++ r :=
  blanks_iff h

theorem word?_eq_some_iff {s r : List Char} {w : String} :
    word? s = some (w, r) ↔ IsWord w ∧ s = w.toList ++ r ∧ Stops isWordPart r := by
  cases s with
  | nil =>
    refine ⟨nofun, fun ⟨⟨c, l, hl, _⟩, hs, _⟩ => ?_⟩
    rw [hl] at hs
    cases hs
  | cons c s =>
    rw [word?]
    constructor
    · intro h
      split at h
      · rename_i hc
        obtain ⟨rfl, rfl⟩ := Prod.mk.inj (Option.some.inj h)
        obtain ⟨hs, hall, hstop⟩ := takeWhile_spec isWordPart s
        rw [String.toList_ofList, List.cons_append, ← hs]
        exact ⟨⟨c, _, String.toList_ofList, hc, hall⟩, rfl, hstop⟩
      · cases h
    · rintro ⟨⟨d, l, hl, hd, hall⟩, hs, hstop⟩
      rw [hl, List.cons_append, List.cons.injEq] at hs
      obtain ⟨rfl, rfl⟩ := hs
      rw [if_pos hd, takeWhile_append_of_stops hall hstop, dropWhile_append_of_stops hall hstop,
        ← hl, String.ofList_toList]

theorem stops_of_isWord {w : String} (h : IsWord w) (r : List Char) :
    Stops isBlank (w.toList ++ r) := by
  obtain ⟨c, l, hl, hc, _⟩ := h
  rw [hl, List.cons_append]
  exact stops_cons.2 (isBlank_of_isWordPart (isWordPart_of_isWordStart hc))

theorem word_iff {w : String} {s r : List Char} :
    Word w s r ↔ word? (skipBlanks s) = some (w, r) := by
  rw [word?_eq_some_iff]
  constructor
  · rintro ⟨hw, hm, hr⟩
    exact ⟨hw, (mark_iff (stops_of_isWord hw r)).1 hm, hr⟩
  · rintro ⟨hw, hs, hr⟩
    exact ⟨hw, (mark_iff (stops_of_isWord hw r)).2 hs, hr⟩

theorem keyword?_eq_some_iff {w : String} {s r : List Char} :
    keyword? w (skipBlanks s) = some r ↔ Word w s r := by
  rw [word_iff, keyword?]
  cases h : word? (skipBlanks s) with
  | none => simp
  | some vq =>
    obtain ⟨v, q⟩ := vq
    by_cases hv : v = w <;> simp [hv]

theorem name?_eq_some_iff {n : String} {s r : List Char} :
    name? (skipBlanks s) = some (n, r) ↔ Name n s r := by
  rw [Name, word_iff, name?]
  cases h : word? (skipBlanks s) with
  | none => simp
  | some vq =>
    obtain ⟨v, q⟩ := vq
    by_cases hv : v ∈ keywords
    · simp only [if_pos hv, Option.some.injEq, Prod.mk.injEq]
      exact ⟨nofun, fun ⟨⟨hn, _⟩, hk⟩ => absurd (hn ▸ hv) hk⟩
    · simp only [if_neg hv, Option.some.injEq, Prod.mk.injEq]
      exact ⟨fun h => ⟨h, h.1 ▸ hv⟩, fun h => h.1⟩

/-! ### Numerals -/

/-- Whether a character, behind a phrase, could belong to it: a digit or a point to a numeral, the
signs of a position and of a condition to a name. -/
def canExtend (c : Char) : Bool := c.isDigit || c = '.' || c = '@' || c = '('

/-- Says that what follows does not extend the phrase before it. -/
def Ended (r : List Char) : Prop := Stops canExtend (skipBlanks r)

theorem Ended.stops {r : List Char} (h : Ended r) : Stops canExtend r := by
  apply stops_of_skipBlanks h
  intro c hc
  simp only [canExtend, Bool.or_eq_false_iff, decide_eq_false_iff_not]
  refine ⟨⟨⟨?_, ne_of_tells hc rfl⟩, ne_of_tells hc rfl⟩, ne_of_tells hc rfl⟩
  cases hd : c.isDigit with
  | false => rfl
  | true =>
    rw [isBlank_of_isDigit hd] at hc
    cases hc

theorem stops_isDigit {r : List Char} (h : Stops canExtend r) : Stops Char.isDigit r := by
  apply h.imp
  intro c hc
  simp only [canExtend, Bool.or_eq_false_iff] at hc
  exact hc.1.1.1

theorem signed_append (minus : Bool) (l r : List Char) :
    signed minus l ++ r = signed minus (l ++ r) := by
  cases minus <;> rfl

theorem signed_splitMinus (s : List Char) : signed (splitMinus s).1 (splitMinus s).2 = s := by
  unfold splitMinus
  split <;> rfl

theorem splitMinus_signed {minus : Bool} {s : List Char} (h : Stops (fun c => c = '-') s) :
    splitMinus (signed minus s) = (minus, s) := by
  cases minus with
  | true => rfl
  | false =>
    cases s with
    | nil => rfl
    | cons c s =>
      have hc : c ≠ '-' := by simpa using h
      simp [signed, splitMinus, hc]

theorem stops_digits {l : List Char} (h : Digits l) {p : Char → Bool}
    (hp : ∀ c, c.isDigit → p c = false) (r : List Char) : Stops p (l ++ r) := by
  cases l with
  | nil => exact absurd rfl h.1
  | cons c l => exact stops_cons.2 (hp c (h.2 c List.mem_cons_self))

/-- A numeral starts with a minus sign or a digit. -/
theorem stops_signed {l : List Char} (h : Digits l) {p : Char → Bool}
    (hm : p '-' = false) (hp : ∀ c, c.isDigit → p c = false) (minus : Bool) (r : List Char) :
    Stops p (signed minus (l ++ r)) := by
  cases minus with
  | true => exact stops_cons.2 hm
  | false => exact stops_digits h hp r

theorem ne_minus_of_isDigit {c : Char} (h : c.isDigit) : decide (c = '-') = false :=
  decide_eq_false (ne_of_tells h rfl)

theorem index_eq_ok_iff {n : Int64} {s r : List Char} :
    index (skipBlanks s) = .ok (n, r) ↔ Index n s r ∧ Stops Char.isDigit r := by
  constructor
  · intro h
    have hs := signed_splitMinus (skipBlanks s)
    simp only [index] at h
    split at h
    · cases h
    rename_i hne
    split at h
    · rename_i k hk
      obtain ⟨rfl, rfl⟩ := Prod.mk.inj (Except.ok.inj h)
      obtain ⟨ht, hall, hstop⟩ := takeWhile_spec Char.isDigit (splitMinus (skipBlanks s)).2
      refine ⟨⟨_, _, ⟨hne, hall⟩, ?_, toInt_of_int64? hk⟩, hstop⟩
      rw [← ht, hs]
      exact Blanks.skip s
    · cases h
  · rintro ⟨⟨minus, digits, hd, hb, hn⟩, hstop⟩
    rw [(blanks_iff (stops_signed hd rfl (fun _ => isBlank_of_isDigit) _ _)).1 hb]
    simp only [index, splitMinus_signed (stops_digits hd (fun _ => ne_minus_of_isDigit) r),
      takeWhile_append_of_stops hd.2 hstop, dropWhile_append_of_stops hd.2 hstop, if_neg hd.1, ← hn,
      int64?_toInt]

theorem fraction_spec (s : List Char) :
    s = pointed (fraction s).1 ++ (fraction s).2 ∧ ∀ c ∈ (fraction s).1, c.isDigit := by
  unfold fraction
  split
  · rename_i t
    split
    · exact ⟨rfl, nofun⟩
    · rename_i hne
      obtain ⟨ht, hall, -⟩ := takeWhile_spec Char.isDigit t
      rw [pointed_of_ne_nil hne, List.cons_append, ← ht]
      exact ⟨rfl, hall⟩
  · exact ⟨rfl, nofun⟩

theorem fraction_pointed {places r : List Char} (hp : ∀ c ∈ places, c.isDigit)
    (hr : Stops canExtend r) : fraction (pointed places ++ r) = (places, r) := by
  have hdigit : Stops Char.isDigit r := stops_isDigit hr
  by_cases hne : places = []
  · subst hne
    cases r with
    | nil => rfl
    | cons c r =>
      have hc : c ≠ '.' := (ne_of_tells rfl (stops_cons.1 hr)).symm
      simp [pointed, fraction, hc]
  · rw [pointed_of_ne_nil hne, List.cons_append, fraction, takeWhile_append_of_stops hp hdigit,
      dropWhile_append_of_stops hp hdigit, if_neg hne]

theorem number?_sound {x : Binary64} {s r : List Char}
    (h : number? (skipBlanks s) = some (x, r)) : Number x s r := by
  have hs := signed_splitMinus (skipBlanks s)
  simp only [number?] at h
  split at h
  · cases h
  rename_i hne
  obtain ⟨rfl, rfl⟩ := Prod.mk.inj (Option.some.inj h)
  obtain ⟨ht, hall, -⟩ := takeWhile_spec Char.isDigit (splitMinus (skipBlanks s)).2
  obtain ⟨hp, hplaces⟩ := fraction_spec ((splitMinus (skipBlanks s)).2.dropWhile Char.isDigit)
  refine ⟨_, _, _, _, ⟨hne, hall⟩, hplaces, ?_, Decimal.isNearest_magnitude _, rfl⟩
  rw [← hp, ← ht, hs]
  exact Blanks.skip s

/-- A number is found if nothing follows that would make its numeral longer. -/
theorem number?_complete {x : Binary64} {s r : List Char} (h : Number x s r)
    (hr : Stops canExtend r) : number? (skipBlanks s) = some (x, r) := by
  obtain ⟨minus, whole, places, m, hw, hp, hb, hm, rfl⟩ := h
  rw [(blanks_iff (stops_signed hw rfl (fun _ => isBlank_of_isDigit) _ _)).1 hb]
  have hstop : Stops Char.isDigit (pointed places ++ r) := by
    cases places with
    | nil => exact stops_isDigit hr
    | cons c places => exact stops_cons.2 rfl
  simp only [number?, splitMinus_signed (stops_digits hw (fun _ => ne_minus_of_isDigit) _),
    takeWhile_append_of_stops hw.2 hstop, dropWhile_append_of_stops hw.2 hstop, if_neg hw.1,
    fraction_pointed hp hr, Binary64.ofDecimal, Decimal.magnitude_eq_iff.2 hm]

/-- No numeral starts with anything but a minus sign or a digit. -/
theorem number?_eq_none {s : List Char} (h : Stops (fun c => c.isDigit || c = '-') s) :
    number? s = none := by
  have hminus : splitMinus (signed false s) = (false, s) :=
    splitMinus_signed (h.imp fun c hc => (Bool.or_eq_false_iff.1 hc).2)
  have hs : signed false s = s := rfl
  have hdigit : s.takeWhile Char.isDigit = [] :=
    Stops.takeWhile_eq_nil (h.imp fun c hc => (Bool.or_eq_false_iff.1 hc).1)
  rw [hs] at hminus
  simp only [number?, hminus, hdigit, if_true]

/-! ### Strings and relations -/

theorem stringTail_eq_ok_iff {v : String} {s r : List Char} :
    stringTail s = .ok (v, r) ↔ (∀ c ∈ v.toList, isStringPart c) ∧ s = v.toList ++ '"' :: r := by
  constructor
  · intro h
    obtain ⟨hs, hall, -⟩ := takeWhile_spec isStringPart s
    rw [stringTail] at h
    split at h
    · rename_i q hq
      obtain ⟨rfl, rfl⟩ := Prod.mk.inj (Except.ok.inj h)
      rw [String.toList_ofList]
      rw [hq] at hs
      exact ⟨hall, hs⟩
    · cases h
  · rintro ⟨hv, rfl⟩
    have hstop : Stops isStringPart ('"' :: r) := stops_cons.2 rfl
    simp only [stringTail, takeWhile_append_of_stops hv hstop, dropWhile_append_of_stops hv hstop,
      String.ofList_toList]

theorem quotation_iff {v : String} {s r : List Char} :
    Quotation v s r ↔ ∃ t, skipBlanks s = '"' :: t ∧ stringTail t = .ok (v, r) := by
  have hb : ∀ t, Blanks s ('"' :: t) ↔ skipBlanks s = '"' :: t := fun t =>
    blanks_iff (stops_cons.2 rfl)
  constructor
  · rintro ⟨hv, hs⟩
    exact ⟨_, (hb _).1 hs, stringTail_eq_ok_iff.2 ⟨hv, rfl⟩⟩
  · rintro ⟨t, ht, h⟩
    obtain ⟨hv, rfl⟩ := stringTail_eq_ok_iff.1 h
    exact ⟨hv, (hb _).2 ht⟩

theorem stops_symbol (o : Relation) (r : List Char) : Stops isBlank (o.symbol.toList ++ r) := by
  cases o <;> exact stops_cons.2 rfl

theorem relation?_sound {o : Relation} {s r : List Char}
    (h : relation? (skipBlanks s) = some (o, r)) : Mark o.symbol s r := by
  rw [mark_iff (stops_symbol o r)]
  revert h
  fun_cases relation? (skipBlanks s) <;> rintro ⟨⟩ <;> rfl

/-- A relation is found if no `=` follows that would make its symbol longer. -/
theorem relation?_complete {o : Relation} {s r : List Char} (h : Mark o.symbol s r)
    (hr : Stops (fun c => c = '=') r) : relation? (skipBlanks s) = some (o, r) := by
  rw [(mark_iff (stops_symbol o r)).1 h]
  cases r with
  | nil => cases o <;> rfl
  | cons c r =>
    have hc : c ≠ '=' := by simpa using hr
    cases o <;> simp [relation?, Relation.symbol, hc]

end Lineup.RuleText
