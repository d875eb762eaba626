import Lineup.Proofs.RuleText.Tokenwise

/-!
# Faults of characters

Quotes are paired from the left, so a place is outside of strings if an even number of quotes stands
before it. A fault is a quote there after which the line or the text ends before the next quote, or
another character there that no token can start with. Looking over the characters of a text finds
its first fault (`charFault?_eq_some_iff`), and none just if there is none
(`charFault?_eq_none_iff`).
-/

namespace Lineup.RuleText

open Text (isBlank)

/-- Says that `rest` is a tail of `s` that starts outside of strings. -/
def Outside (s rest : List Char) : Prop := ∃ before, s = before ++ rest ∧ before.count '"' % 2 = 0

/-- Says that the text or its line ends before the next quote. -/
def Unclosed (s : List Char) : Prop :=
  ∃ v r, s = v ++ r ∧ (∀ c ∈ v, c ≠ '"') ∧ (r = [] ∨ r.head? = some '\n' ∨ r.head? = some '\r')

/-- Says that a text that starts outside of strings starts with the fault `f`. -/
inductive StartsFaulty : List Char → CharFault → Prop where
  | openString {s : List Char} : Unclosed s → StartsFaulty ('"' :: s) .openString
  | unrecognized {c : Char} {s : List Char} : c ≠ '"' → isBlank c = false → c.isAlphanum = false →
    c ∉ "_(),@-<>=!.".toList → StartsFaulty (c :: s) (.unrecognized c)

/-- Says that `f` is the first fault of `s` and that `rest` starts with it. -/
structure FirstFault (s rest : List Char) (f : CharFault) : Prop where
  outside : Outside s rest
  faulty : StartsFaulty rest f
  first : ∀ rest' f', Outside s rest' → StartsFaulty rest' f' → rest'.length ≤ rest.length

variable {s t rest : List Char} {f g : CharFault}

/-! ### Inside and outside of strings -/

theorem Outside.refl (s : List Char) : Outside s s := ⟨[], rfl, rfl⟩

theorem Outside.suffix (h : Outside s rest) : rest <:+ s := by
  obtain ⟨before, rfl, -⟩ := h
  exact List.suffix_append before rest

/-- A character other than a quote leads from outside of strings to outside of strings. -/
theorem outside_cons_iff {c : Char} (hc : c ≠ '"') :
    Outside (c :: s) rest ↔ rest = c :: s ∨ Outside s rest := by
  constructor
  · rintro ⟨before, hs, hcount⟩
    cases before with
    | nil => exact .inl hs.symm
    | cons d before =>
      obtain ⟨rfl, htail⟩ := List.cons.inj hs
      rw [List.count_cons_of_ne hc] at hcount
      exact .inr ⟨before, htail, hcount⟩
  · rintro (rfl | ⟨before, rfl, hcount⟩)
    · exact .refl _
    · exact ⟨c :: before, rfl, by rwa [List.count_cons_of_ne hc]⟩

/-- A whole string does, and no place within it is outside of strings. -/
theorem outside_string_iff {v : List Char} (hv : ∀ c ∈ v, c ≠ '"') :
    Outside ('"' :: (v ++ '"' :: s)) rest ↔
      rest = '"' :: (v ++ '"' :: s) ∨ Outside s rest := by
  have hzero : ∀ w : List Char, (∀ c ∈ w, c ≠ '"') → w.count '"' = 0 := fun w hw =>
    List.count_eq_zero.2 fun hmem => hw '"' hmem rfl
  constructor
  · rintro ⟨before, hs, hcount⟩
    cases before with
    | nil => exact .inl hs.symm
    | cons d before =>
      obtain ⟨rfl, htail⟩ := List.cons.inj hs
      rw [List.count_cons_self] at hcount
      rcases List.append_eq_append_iff.1 htail with ⟨a, rfl, ha⟩ | ⟨a, rfl, -⟩
      · -- what is before reaches beyond the characters of the string
        rw [List.count_append, hzero v hv] at hcount
        cases a with
        | nil =>
          rw [List.count_nil] at hcount
          omega
        | cons e a =>
          obtain ⟨rfl, rfl⟩ := List.cons.inj ha
          rw [List.count_cons_self] at hcount
          exact .inr ⟨a, rfl, by omega⟩
      · -- what is before ends within the string
        rw [hzero before fun c hc => hv c (List.mem_append_left a hc)] at hcount
        omega
  · rintro (rfl | ⟨before, rfl, hcount⟩)
    · exact .refl _
    · refine ⟨'"' :: (v ++ '"' :: before), by simp, ?_⟩
      rw [List.count_cons_self, List.count_append, List.count_cons_self, hzero v hv]
      omega

/-! ### First faults -/

theorem StartsFaulty.unique (hf : StartsFaulty s f) (hg : StartsFaulty s g) : f = g := by
  cases hf with
  | openString _ =>
    cases hg with
    | openString _ => rfl
    | unrecognized hne _ _ _ => exact absurd rfl hne
  | unrecognized hne _ _ _ =>
    cases hg with
    | openString _ => exact absurd rfl hne
    | unrecognized _ _ _ _ => rfl

theorem firstFault_of_startsFaulty (hf : StartsFaulty s f) :
    FirstFault s rest g ↔ f = g ∧ s = rest := by
  constructor
  · rintro ⟨hrest, hg, hfirst⟩
    obtain rfl := hrest.suffix.eq_of_length_le (hfirst s f (.refl s) hf)
    exact ⟨hf.unique hg, rfl⟩
  · rintro ⟨rfl, rfl⟩
    exact ⟨.refl s, hf, fun rest' f' h _ => h.suffix.length_le⟩

/-- The first fault stays the first when more is put before it in which there is none. -/
theorem firstFault_congr (h : ∀ rest, Outside t rest ↔ rest = t ∨ Outside s rest)
    (ht : ∀ f, ¬ StartsFaulty t f) : FirstFault t rest f ↔ FirstFault s rest f := by
  have hfault : ∀ rest f, StartsFaulty rest f → (Outside t rest ↔ Outside s rest) := by
    intro rest f hf
    rw [h]
    exact or_iff_right fun he => ht f (he ▸ hf)
  constructor
  · rintro ⟨ho, hf, hfirst⟩
    exact ⟨(hfault _ _ hf).1 ho, hf, fun _ _ ho' hf' => hfirst _ _ ((hfault _ _ hf').2 ho') hf'⟩
  · rintro ⟨ho, hf, hfirst⟩
    exact ⟨(hfault _ _ hf).2 ho, hf, fun _ _ ho' hf' => hfirst _ _ ((hfault _ _ hf').1 ho') hf'⟩

theorem exists_firstFault (ho : Outside s rest) (hf : StartsFaulty rest f) :
    ∃ rest f, FirstFault s rest f := by
  have hex : ∃ n rest f, rest.length + n = s.length ∧ Outside s rest ∧ StartsFaulty rest f :=
    ⟨s.length - rest.length, rest, f, Nat.add_sub_cancel' ho.suffix.length_le, ho, hf⟩
  classical
  obtain ⟨rest₀, f₀, hlength, ho₀, hf₀⟩ := Nat.find_spec hex
  refine ⟨rest₀, f₀, ho₀, hf₀, fun rest' f' ho' hf' => ?_⟩
  by_contra hlt
  have hle := ho'.suffix.length_le
  refine Nat.find_min hex (m := s.length - rest'.length) ?_ ⟨rest', f', ?_, ho', hf'⟩
  · omega
  · omega

/-! ### Looking characters over -/

theorem isTokenChar_iff {c : Char} :
    isTokenChar c ↔ isBlank c ∨ c.isAlphanum ∨ c ∈ "_(),@-<>=!.".toList := by
  rw [isTokenChar, Bool.or_eq_true, Bool.or_eq_true, decide_eq_true_eq, or_assoc]
  rfl

theorem not_startsFaulty {c : Char} (hc : isTokenChar c) : ¬ StartsFaulty (c :: s) f := by
  intro h
  cases h with
  | openString _ => cases hc
  | unrecognized _ hblank halnum hmark =>
    rcases isTokenChar_iff.1 hc with h | h | h
    · rw [hblank] at h
      cases h
    · rw [halnum] at h
      cases h
    · exact hmark h

theorem startsFaulty_of_unrecognized {c : Char} (hquote : c ≠ '"') (hc : isTokenChar c = false) :
    StartsFaulty (c :: s) (.unrecognized c) := by
  have hnot : ¬ isTokenChar c := Bool.eq_false_iff.1 hc
  rw [isTokenChar_iff, not_or, not_or] at hnot
  exact .unrecognized hquote (Bool.eq_false_iff.2 hnot.1) (Bool.eq_false_iff.2 hnot.2.1) hnot.2.2

theorem isStringPart_iff {c : Char} : isStringPart c ↔ c ≠ '"' ∧ c ≠ '\n' ∧ c ≠ '\r' := by
  simp only [isStringPart, Bool.and_eq_true, decide_eq_true_eq, and_assoc]

/-- After a quote there is the rest of a string or an end of line or of the text. -/
theorem unclosed_or_closed (s : List Char) :
    Unclosed s ∨ ∃ v r, s = v ++ '"' :: r ∧ ∀ c ∈ v, isStringPart c := by
  obtain ⟨hs, hall, hstop⟩ := Text.takeWhile_spec isStringPart s
  have hquote : ∀ c ∈ s.takeWhile isStringPart, c ≠ '"' := fun c hc =>
    (isStringPart_iff.1 (hall c hc)).1
  cases hr : s.dropWhile isStringPart with
  | nil => exact .inl ⟨_, _, hs, hquote, .inl hr⟩
  | cons c r =>
    rw [hr, Text.stops_cons, Bool.eq_false_iff, Ne, isStringPart_iff] at hstop
    by_cases hc : c = '"'
    · rw [hr, hc] at hs
      exact .inr ⟨_, r, hs, hall⟩
    · refine .inl ⟨_, _, hs, hquote, .inr ?_⟩
      rw [hr, List.head?_cons, Option.some_inj, Option.some_inj]
      by_cases hn : c = '\n'
      · exact .inl hn
      · exact .inr (by_contra fun hr => hstop ⟨hc, hn, hr⟩)

theorem not_unclosed {v r : List Char} (hv : ∀ c ∈ v, isStringPart c) :
    ¬ Unclosed (v ++ '"' :: r) := by
  rintro ⟨w, t, hs, hw, ht⟩
  rcases List.append_eq_append_iff.1 hs with ⟨a, rfl, ha⟩ | ⟨a, rfl, rfl⟩
  · cases a with
    | nil =>
      obtain rfl : '"' :: r = t := ha
      simp at ht
    | cons c a =>
      obtain ⟨rfl, -⟩ := List.cons.inj ha
      exact hw _ (List.mem_append_right v List.mem_cons_self) rfl
  · cases a with
    | nil => simp at ht
    | cons c a =>
      have hc := isStringPart_iff.1 (hv c (List.mem_append_right w List.mem_cons_self))
      have hend : c = '\n' ∨ c = '\r' := by simpa using ht
      exact hend.elim hc.2.1 hc.2.2

theorem Unclosed.charFaultFrom? (h : Unclosed s) (t : List Char) :
    charFaultFrom? (some t) s = some (.openString, t) := by
  obtain ⟨v, r, rfl, hv, hr⟩ := h
  induction v with
  | nil =>
    cases r with
    | nil => rfl
    | cons c r =>
      have hc : c = '\n' ∨ c = '\r' := by simpa using hr
      have hquote : c ≠ '"' := by rintro rfl; simp at hc
      rw [List.nil_append, RuleText.charFaultFrom?]
      simp only [if_neg hquote, if_pos hc]
  | cons c v ih =>
    obtain ⟨hc, hv⟩ := List.forall_mem_cons.1 hv
    rw [List.cons_append, RuleText.charFaultFrom?]
    simp only [if_neg hc, ih hv, ite_self]

theorem charFault?_unclosed (h : Unclosed s) :
    charFault? ('"' :: s) = some (.openString, '"' :: s) := by
  rw [charFault?, RuleText.charFaultFrom?]
  exact h.charFaultFrom? _

theorem charFault?_unrecognized {c : Char} (hquote : c ≠ '"') (hc : isTokenChar c = false) :
    charFault? (c :: s) = some (.unrecognized c, c :: s) := by
  simp only [charFault?, RuleText.charFaultFrom?, if_neg hquote, hc, Bool.false_eq_true, if_false]

theorem charFault?_eq_some_iff : charFault? s = some (f, rest) ↔ FirstFault s rest f := by
  -- by the length of the text, as a whole string is passed over at once
  induction hn : s.length using Nat.strong_induction_on generalizing s with
  | _ n ih =>
    subst hn
    cases s with
    | nil =>
      refine iff_of_false nofun fun h => ?_
      have hnil : rest = [] := List.suffix_nil.1 h.outside.suffix
      have hf := h.faulty
      rw [hnil] at hf
      cases hf
    | cons c s =>
      by_cases hquote : c = '"'
      · subst hquote
        rcases unclosed_or_closed s with h | ⟨v, r, rfl, hv⟩
        · rw [charFault?_unclosed h, firstFault_of_startsFaulty (.openString h), Option.some_inj,
            Prod.mk.injEq]
        · have hlt : r.length < ('"' :: (v ++ '"' :: r)).length := by
            rw [List.length_cons, List.length_append, List.length_cons]
            omega
          have hne : ∀ c ∈ v, c ≠ '"' := fun c hc => (isStringPart_iff.1 (hv c hc)).1
          have hnot : ∀ f, ¬ StartsFaulty ('"' :: (v ++ '"' :: r)) f := by
            rintro f (h | ⟨hne, -, -, -⟩)
            · exact not_unclosed hv h
            · exact hne rfl
          rw [firstFault_congr (fun _ => outside_string_iff hne) hnot, ← ih _ hlt rfl,
            tokenwise_charFault?.quoted hv]
      · cases hc : isTokenChar c with
        | true =>
          rw [firstFault_congr (fun _ => outside_cons_iff hquote) fun _ => not_startsFaulty hc,
            ← ih _ (Nat.lt_succ_self _) rfl, charFault?_cons hc]
        | false =>
          rw [charFault?_unrecognized hquote hc, Option.some_inj, Prod.mk.injEq,
            firstFault_of_startsFaulty (startsFaulty_of_unrecognized hquote hc)]

theorem charFault?_eq_none_iff :
    charFault? s = none ↔ ∀ rest f, Outside s rest → ¬ StartsFaulty rest f := by
  rw [Option.eq_none_iff_forall_ne_some]
  constructor
  · intro h rest f ho hf
    obtain ⟨rest', f', hfirst⟩ := exists_firstFault ho hf
    exact h _ (charFault?_eq_some_iff.2 hfirst)
  · rintro h ⟨f, rest⟩ hf
    have hfirst := charFault?_eq_some_iff.1 hf
    exact h rest f hfirst.outside hfirst.faulty

end Lineup.RuleText
