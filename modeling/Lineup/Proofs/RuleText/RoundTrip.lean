import Lineup.Proofs.RuleText.Reread
import Lineup.Rule.Equality

/-!
# Texts of rules that were read

What is read can be written, has no groups and no NaN (`Condition.FromText`). But it can have
infinities, since a numeral of any length stands for the number nearest to it. They are the only
reason for which the text of a rule that was read does not read back as an equal rule.
-/

namespace Lineup

open Text (stops_cons)
open RuleText Grammar

/-! ### What is read -/

structure Condition.FromText (c : Condition) : Prop where
  spelled : c.Spelled
  ungrouped : c.ungrouped = c
  numbers : ∀ x ∈ c.numbers, x.isNaN = false

namespace RuleText

variable {s r : List Char}

theorem isNaN_of_number {x : Binary64} (h : Number x s r) : x.isNaN = false := by
  obtain ⟨minus, whole, places, m, -, -, -, hm, rfl⟩ := h
  exact Binary64.isNaN_ofParts hm.le_infinity

theorem spelled_of_termPhrase {t : Term} (h : TermPhrase s t r) : t.Spelled := by
  cases h with
  | bare hn => exact ⟨⟨hn.1.1, hn.2⟩, nofun⟩
  | pinned hn _ _ => exact ⟨⟨hn.1.1, hn.2⟩, fun p hp => Option.some.inj hp ▸ trivial⟩

theorem spelled_of_operandPhrase {v : Operand} (h : OperandPhrase s v r) : v.Spelled := by
  cases h with
  | number _ | true _ | false _ => trivial
  | string hv => exact hv.1
  | term ht => exact spelled_of_termPhrase ht

theorem isNaN_of_operandPhrase {v : Operand} (h : OperandPhrase s v r) :
    ∀ x ∈ v.numbers, x.isNaN = false := by
  cases h with
  | number hx => exact List.forall_mem_singleton.2 (isNaN_of_number hx)
  | _ => exact nofun

theorem fromText_of_conditionPhrase {tier : Tier} {c : Condition}
    (h : ConditionPhrase tier s c r) : c.FromText := by
  induction h with
  | comparison hc =>
    obtain ⟨ht, -, hv⟩ := hc
    exact ⟨⟨spelled_of_termPhrase ht, spelled_of_operandPhrase hv⟩, rfl, isNaN_of_operandPhrase hv⟩
  | parentheses _ _ _ ih | primary _ ih | conjunction _ ih => exact ih
  | and _ _ _ ihc ihd | or _ _ _ ihc ihd =>
    refine ⟨⟨ihc.spelled, ihd.spelled⟩, ?_, List.forall_mem_append.2 ⟨ihc.numbers, ihd.numbers⟩⟩
    rw [Condition.ungrouped, ihc.ungrouped, ihd.ungrouped]

theorem spelled_of_slotPhrase {v : Slot} (h : SlotPhrase s v r) :
    v.Spelled ∧ ∀ c ∈ v.conditions, c.FromText := by
  cases h with
  | bare hn => exact ⟨⟨⟨hn.1.1, hn.2⟩, nofun, nofun, .inl rfl⟩, nofun⟩
  | constrained hn _ hc _ =>
    have hc := fromText_of_conditionPhrase hc
    refine ⟨⟨⟨hn.1.1, hn.2⟩, ?_, nofun, .inr rfl⟩, List.forall_mem_singleton.2 hc⟩
    exact fun d hd => Option.some.inj hd ▸ hc.spelled
  | pinned hn _ _ =>
    exact ⟨⟨⟨hn.1.1, hn.2⟩, nofun, fun p hp => Option.some.inj hp ▸ trivial, .inl rfl⟩, nofun⟩

theorem spelled_of_slotsPhrase {sep : List Char → List Char → Prop} {p : Pattern}
    (h : SlotsPhrase sep s p r) : p.Spelled ∧ ∀ c ∈ p.conditions, c.FromText := by
  induction h with
  | one hv =>
    obtain ⟨hv, hc⟩ := spelled_of_slotPhrase hv
    exact ⟨⟨nofun, List.forall_mem_singleton.2 hv⟩, List.forall_mem_flatMap.2
      (List.forall_mem_singleton.2 hc)⟩
  | more hv _ _ ih =>
    obtain ⟨hv, hc⟩ := spelled_of_slotPhrase hv
    obtain ⟨hp, hcs⟩ := ih
    exact ⟨⟨nofun, List.forall_mem_cons.2 ⟨hv, hp.slots⟩⟩, List.forall_mem_append.2 ⟨hc, hcs⟩⟩

theorem spelled_of_patternPhrase {p : Pattern} (h : PatternPhrase s p r) :
    p.Spelled ∧ ∀ c ∈ p.conditions, c.FromText := by
  cases h with
  | commas hp | sideBySide hp => exact spelled_of_slotsPhrase hp
  | arrow hv hm hw => exact spelled_of_slotsPhrase (.more hv hm (.one hw))

theorem spelled_of_derives {v : Rule} (h : Derives s v) :
    v.Spelled ∧ ∀ c ∈ v.conditions, c.FromText := by
  obtain ⟨rest, hr, -⟩ := h
  cases hr with
  | simple hp => exact spelled_of_patternPhrase hp
  | conditional _ hc _ hp =>
    have hc := fromText_of_conditionPhrase hc
    obtain ⟨hp, hcs⟩ := spelled_of_patternPhrase hp
    exact ⟨⟨hc.spelled, hp, nofun⟩, List.forall_mem_cons.2 ⟨hc, by simpa using hcs⟩⟩
  | alternative _ hc _ hp _ hq =>
    have hc := fromText_of_conditionPhrase hc
    obtain ⟨hp, hcs⟩ := spelled_of_patternPhrase hp
    obtain ⟨hq, hds⟩ := spelled_of_patternPhrase hq
    refine ⟨⟨hc.spelled, hp, fun q hq' => Option.some.inj hq' ▸ hq⟩, ?_⟩
    refine List.forall_mem_cons.2 ⟨hc, List.forall_mem_append.2 ⟨hcs, ?_⟩⟩
    simpa using hds

end RuleText

/-! ### Equality with what is reread -/

theorem Binary64.equal_self {x : Binary64} (h : x.isNaN = false) : x.equal x := by
  simp [equal, compare?, h]

theorem Operand.equal_reread_iff {v : Operand} (hv : ∀ x ∈ v.numbers, x.isNaN = false) :
    v.equal v.reread ↔ ∀ x ∈ v.numbers, x.isFinite := by
  cases v with
  | number x =>
    have hn : x.isNaN = false := hv x List.mem_cons_self
    rw [reread, numbers, List.forall_mem_singleton]
    split
    · rename_i hx
      exact iff_of_true (Binary64.equal_self hn) hx
    · rename_i hx
      exact iff_of_false Bool.false_ne_true hx
  | boolean b | string v | term t => simp [equal, reread, numbers]

theorem Condition.equal_reread_iff {c : Condition} (hc : ∀ x ∈ c.numbers, x.isNaN = false) :
    c.equal c.reread ↔ ∀ x ∈ c.numbers, x.isFinite := by
  induction c with
  | comparison c =>
    simp only [reread, equal, Comparison.equal, decide_true, Bool.true_and]
    exact Operand.equal_reread_iff hc
  | group c ih => exact ih hc
  | join op l r ihl ihr =>
    obtain ⟨hl, hr⟩ := List.forall_mem_append.1 hc
    simp only [reread, equal, decide_true, Bool.true_and, Bool.and_eq_true, ihl hl, ihr hr, numbers,
      List.forall_mem_append]

theorem Rule.equal_mapConditions_iff {f : Condition → Condition} {r : Rule} :
    r.equal (r.mapConditions f) ↔ ∀ c ∈ r.conditions, c.equal (f c) := by
  have hslot : ∀ s : Slot, s.equal (s.mapCondition f) ↔ ∀ c ∈ s.conditions, c.equal (f c) := by
    rintro ⟨n, c, p⟩
    cases c <;> simp [Slot.equal, Slot.mapCondition, Slot.conditions, equalIfAny]
  have hpattern : ∀ p : Pattern,
      p.equal (p.mapConditions f) ↔ ∀ c ∈ p.conditions, c.equal (f c) := by
    intro p
    induction p with
    | nil => exact iff_of_true rfl (List.forall_mem_nil _)
    | cons s p ih =>
      rw [Pattern.conditions, List.flatMap_cons, List.forall_mem_append, ← hslot]
      exact Bool.and_eq_true_iff.trans (and_congr_right fun _ => ih)
  cases r with
  | simple p => exact hpattern p
  | conditional c p q =>
    cases q with
    | none => simp [equal, mapConditions, equalIfAny, conditions, hpattern]
    | some q => simp [equal, mapConditions, equalIfAny, conditions, hpattern, and_assoc, or_imp,
        forall_and]

/-! ### The round trip -/

theorem Condition.ungrouped_reread (c : Condition) : c.reread.ungrouped = c.ungrouped.reread := by
  induction c with
  | comparison c => rfl
  | group c ih => exact ih
  | join op l r ihl ihr => simp only [reread, ungrouped, ihl, ihr]

theorem Rule.ungrouped_reread {r : Rule} (hr : ∀ c ∈ r.conditions, c.ungrouped = c) :
    r.reread.ungrouped = r.reread := by
  apply mapConditions_eq_self
  rw [reread, conditions_mapConditions, List.forall_mem_map]
  intro c hc
  rw [Condition.ungrouped_reread, hr c hc]

/-- **The text of a rule that was read** reads back as an equal rule just if all numbers of the rule
are finite, that is, if no numeral in the text that was read is so long that it stands for
infinity. -/
theorem Rule.parse_text_equal_iff {text : String} {r : Rule} (h : Rule.parse text = .ok r) :
    (∃ r', Rule.parse r.text = .ok r' ∧ r.equal r') ↔ ∀ x ∈ r.numbers, x.isFinite := by
  obtain ⟨hspelled, hread⟩ := spelled_of_derives (derives_of_parse h)
  have hequal : r.equal r.reread ↔ ∀ x ∈ r.numbers, x.isFinite := by
    rw [reread, equal_mapConditions_iff, numbers, List.forall_mem_flatMap]
    exact forall₂_congr fun c hc => Condition.equal_reread_iff (hread c hc).numbers
  by_cases hneg : ∀ x ∈ r.numbers, x.isMinusInfinity = false
  · have hparse := parse_text_eq_reread hspelled (fault?_of_parse h) hneg
    rw [ungrouped_reread fun c hc => (hread c hc).ungrouped] at hparse
    rw [← hequal]
    constructor
    · rintro ⟨r', hr', he⟩
      rw [hparse] at hr'
      exact Except.ok.inj hr' ▸ he
    · exact fun he => ⟨_, hparse, he⟩
  · simp only [not_forall, Bool.not_eq_false] at hneg
    obtain ⟨x, hx, hneg⟩ := hneg
    constructor
    · rintro ⟨r', hr', -⟩
      exact absurd (derives_of_parse hr') (not_derives_of_minusInfinity hspelled hx hneg)
    · intro hfinite
      rw [Binary64.isMinusInfinity, hfinite x hx] at hneg
      simp at hneg

/-- A numeral stands for the number nearest to it, however long it is. -/
theorem Rule.parse_numeral {digits : String} (hd : Decimal.Digits digits.toList) :
    Rule.parse ("x(v = " ++ digits ++ ")") = .ok (.simple [⟨"x", some (.comparison
      ⟨⟨"v", none⟩, .eq, .number (.ofDecimal false (.ofDigits digits.toList [] 0))⟩), none⟩]) := by
  obtain ⟨hx, hxk⟩ : IsName "x" := by decide
  obtain ⟨hv, hvk⟩ : IsName "v" := by decide
  have hsplit : "x(v = " = "x" ++ "(" ++ "v" ++ " " ++ "=" ++ " " := by decide
  refine parse_of_derives ⟨[], .simple (.commas (.one ?_)), .refl []⟩ rfl
  rw [hsplit]
  simp only [String.toList_append, List.append_assoc]
  have hterm : ∀ t, TermPhrase ("v".toList ++ (" ".toList ++ t)) ⟨"v", none⟩ (" ".toList ++ t) :=
    fun t => .bare ⟨⟨hv, mark_self, stops_space⟩, hvk⟩
  have hnumber : Number (.ofDecimal false (.ofDigits digits.toList [] 0))
      (" ".toList ++ (digits.toList ++ ")".toList)) ")".toList :=
    ⟨false, digits.toList, [], _, hd, nofun, mark_space, Decimal.isNearest_magnitude _, rfl⟩
  have hcomparison := ComparisonPhrase.intro (o := .eq) (hterm _) mark_space (.number hnumber)
  exact .constrained ⟨⟨hx, mark_self, stops_cons.2 rfl⟩, hxk⟩ mark_self
    (.conjunction (.primary (.comparison hcomparison))) mark_self

/-- A numeral of 310 digits stands for infinity, which is written `inf`. -/
theorem Rule.parse_text_overflow :
    Rule.parse ("x(v = " ++ String.ofList ('1' :: List.replicate 309 '0') ++ ")") =
        .ok (.simple
          [⟨"x", some (.comparison ⟨⟨"v", none⟩, .eq, .number ⟨0x7ff0000000000000⟩⟩), none⟩]) ∧
      ¬ ∃ r', Rule.parse "x(v = inf)" = .ok r' ∧ Rule.equal (.simple
        [⟨"x", some (.comparison ⟨⟨"v", none⟩, .eq, .number ⟨0x7ff0000000000000⟩⟩), none⟩]) r' := by
  have hdigits : Decimal.Digits (String.ofList ('1' :: List.replicate 309 '0')).toList := by
    rw [String.toList_ofList]
    refine ⟨nofun, List.forall_mem_cons.2 ⟨by decide, ?_⟩⟩
    exact fun c => Decimal.isDigit_of_mem_replicate
  have hnumber : Binary64.ofDecimal false
      (.ofDigits (String.ofList ('1' :: List.replicate 309 '0')).toList [] 0) =
      ⟨0x7ff0000000000000⟩ := by
    rw [String.toList_ofList]
    decide +kernel
  have hparse := Rule.parse_numeral hdigits
  rw [hnumber] at hparse
  have htext : Rule.text (.simple
      [⟨"x", some (.comparison ⟨⟨"v", none⟩, .eq, .number ⟨0x7ff0000000000000⟩⟩), none⟩]) =
      "x(v = inf)" := by decide +kernel
  refine ⟨hparse, ?_⟩
  rw [← htext, Rule.parse_text_equal_iff hparse]
  decide

end Lineup
