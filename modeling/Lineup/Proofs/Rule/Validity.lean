import Lineup.Proofs.RuleText.PositionLiterals
import Lineup.Proofs.RuleText.Spelled
import Lineup.Rule.Checked

/-!
# Which rules are valid

A rule is valid just if each of its positions is an index, and otherwise its fault is that of the
first one that is not (`Rule.fault?_eq_some_iff`). As a text names the positions of its rule in
their order, it can be told from the integers in a text whether it parses, and which of them is
reported if it does not (`Rule.validity_exact`). A checked rule is valid however it has been made.
-/

namespace Lineup

open RuleText

/-- Says that a position has a fault. -/
inductive Position.Faulty : Position → PositionFault → Prop where
  | negative {n : Int64} : n.toInt < 0 → Faulty (.absolute n) (.negative n)
  | relative {n : Int64} : Faulty (.relative n) (.relative n)

theorem Position.fault?_eq_some_iff {p : Position} {f : PositionFault} :
    p.fault? = some f ↔ p.Faulty f := by
  constructor
  · intro h
    cases p with
    | absolute n =>
      rw [fault?] at h
      split at h
      · rename_i hn
        obtain rfl := Option.some.inj h
        exact .negative hn
      · cases h
    | relative n =>
      obtain rfl := Option.some.inj h
      exact .relative
  · intro h
    cases h with
    | negative hn => exact if_pos hn
    | relative => rfl

theorem Position.fault?_eq_none_iff {p : Position} : p.fault? = none ↔ p.IsIndex := by
  refine ⟨fun h => ?_, IsIndex.fault?⟩
  cases p with
  | absolute n =>
    by_contra hn
    rw [fault?, if_pos (Int.not_le.1 hn)] at h
    cases h
  | relative n => cases h

/-- The fault of a rule is that of the first position that has one. -/
theorem Rule.fault?_eq_some_iff {r : Rule} {f : PositionFault} :
    r.fault? = some f ↔ ∃ before p after, r.positions = before ++ p :: after ∧
      (∀ q ∈ before, q.IsIndex) ∧ p.Faulty f := by
  simp only [fault?_eq, List.findSome?_eq_some_iff, Position.fault?_eq_some_iff,
    Position.fault?_eq_none_iff, and_comm (a := Position.Faulty _ _)]

/-! ### Texts -/

/-- The fault of positions that are all absolute is that of the first negative one. -/
theorem findSome?_fault?_absolute (indices : List Int64) :
    (indices.map Position.absolute).findSome? Position.fault? =
      (indices.find? (·.toInt < 0)).map .negative := by
  induction indices with
  | nil => rfl
  | cons n indices ih =>
    rw [List.map_cons, List.findSome?_cons, List.find?_cons, Position.fault?]
    by_cases hn : n.toInt < 0
    · simp only [hn, if_true, decide_true, Option.map_some]
    · simp only [hn, if_false, decide_false, ih]

/-- The first negative integer in a text is the index of the first fault of its rule. -/
theorem find?_positionLiterals {s : List Char} {r : Rule} (h : Grammar.Derives s r) :
    ∃ index : Option Int64, r.fault? = index.map .negative ∧
      (positionLiterals s).find? (· < 0) = index.map Int64.toInt := by
  obtain ⟨indices, hpositions, hliterals⟩ := positions_of_derives h
  refine ⟨indices.find? (·.toInt < 0), ?_, ?_⟩
  · rw [Rule.fault?_eq, hpositions, findSome?_fault?_absolute]
  · rw [hliterals, List.find?_map]
    rfl

theorem Rule.parse_of_fault {text : String} {r : Rule} {f : PositionFault}
    (h : Grammar.Derives text.toList r) (hr : r.fault? = some f) :
    Rule.parse text = .error ⟨.origin, .position f⟩ := by
  simp only [parse, if_neg (skipBlanks_ne_nil_of_derives h), charFault?_of_derives h,
    wholeRule_of_derives h, hr]
  rfl

/-! ### Checked rules -/

namespace CheckedRule

theorem ofRule_eq_error_iff {r : Rule} {f : PositionFault} :
    ofRule r = .error f ↔ r.fault? = some f := by
  rw [ofRule]
  split
  · rename_i h
    simp [h]
  · rename_i g h
    simp [h]

theorem ofRule_eq_ok {r : Rule} {c : CheckedRule} (h : ofRule r = .ok c) :
    r.fault? = none ∧ c.rule = r := by
  rw [ofRule] at h
  split at h
  · rename_i hr
    obtain rfl := Except.ok.inj h
    exact ⟨hr, rfl⟩
  · cases h

theorem parse_eq_ok {text : String} {c : CheckedRule} (h : parse text = .ok c) :
    Rule.parse text = .ok c.rule := by
  rw [parse] at h
  split at h
  · rename_i hr
    obtain rfl := Except.ok.inj h
    exact hr
  · cases h

theorem load_eq_ok {file : Option ByteArray} {c : CheckedRule} (h : load file = .ok c) :
    ∃ text, parse text = .ok c := by
  cases file with
  | none => cases h
  | some bytes =>
    rw [load] at h
    split at h
    · cases h
    · rename_i text _
      cases hparse : parse text with
      | error e =>
        rw [hparse] at h
        cases h
      | ok c' =>
        rw [hparse] at h
        obtain rfl := Except.ok.inj h
        exact ⟨text, hparse⟩

/-- How checked rules are made. -/
inductive Made : CheckedRule → Prop where
  | ofRule {r : Rule} {c : CheckedRule} : ofRule r = .ok c → Made c
  | parse {text : String} {c : CheckedRule} : parse text = .ok c → Made c
  | load {file : Option ByteArray} {c : CheckedRule} : load file = .ok c → Made c
  | withOptions {c : CheckedRule} {options : Options} : Made c → Made (c.withOptions options)

theorem Made.positions {c : CheckedRule} (h : c.Made) : ∀ p ∈ c.rule.positions, p.IsIndex := by
  have hindex : ∀ r : Rule, r.fault? = none → ∀ p ∈ r.positions, p.IsIndex := fun r hr p hp =>
    Position.fault?_eq_none_iff.1 (Rule.fault?_eq_none_iff.1 hr p hp)
  induction h with
  | ofRule h =>
    obtain ⟨hr, hc⟩ := ofRule_eq_ok h
    exact hindex _ (hc ▸ hr)
  | parse h => exact hindex _ (Rule.fault?_of_parse (parse_eq_ok h))
  | load h =>
    obtain ⟨text, h⟩ := load_eq_ok h
    exact hindex _ (Rule.fault?_of_parse (parse_eq_ok h))
  | withOptions _ ih => exact ih

end CheckedRule

/-- **Validity is exact**: a rule is valid just if all its positions are indices, and its fault is
that of the first one that is not. A text that is read as a rule parses just if none of the integers
behind its signs of positions is negative, and otherwise the first negative one is reported, at the
start of the text. Whatever parses is valid, and so is a checked rule however it has been made; a
rule can be checked unless it has a fault, which is reported. -/
theorem Rule.validity_exact :
    (∀ r : Rule, r.fault? = none ↔ ∀ p ∈ r.positions, p.IsIndex) ∧
      (∀ (r : Rule) (f : PositionFault), r.fault? = some f ↔
        ∃ before p after, r.positions = before ++ p :: after ∧ (∀ q ∈ before, q.IsIndex) ∧
          p.Faulty f) ∧
      (∀ (text : String) (r : Rule), wholeRule text.toList = .ok r →
        (Rule.parse text = .ok r ↔ ∀ n ∈ positionLiterals text.toList, 0 ≤ n) ∧
          ∀ n, (positionLiterals text.toList).find? (· < 0) = some n →
            ∃ e, Rule.parse text = .error e ∧ e.location = ⟨1, 0⟩ ∧
              e.fault.message =
                "Absolute position must be non-negative (got " ++ toString n ++ ")") ∧
      (∀ (text : String) (r : Rule), Rule.parse text = .ok r → r.fault? = none) ∧
      (∀ r : Rule, (∀ f, CheckedRule.ofRule r = .error f ↔ r.fault? = some f) ∧
        ∀ c, CheckedRule.ofRule r = .ok c → c.rule = r) ∧
      ∀ c : CheckedRule, c.Made → c.rule.fault? = none := by
  have hvalid : ∀ r : Rule, r.fault? = none ↔ ∀ p ∈ r.positions, p.IsIndex := fun r => by
    simp only [fault?_eq_none_iff, Position.fault?_eq_none_iff]
  refine ⟨hvalid, fun r f => fault?_eq_some_iff, fun text r hread => ?_,
    fun text r => fault?_of_parse,
    fun r => ⟨fun f => CheckedRule.ofRule_eq_error_iff, fun c h => (CheckedRule.ofRule_eq_ok h).2⟩,
    fun c hc => (hvalid _).2 hc.positions⟩
  have hderives := derives_of_wholeRule hread
  obtain ⟨index, hfault, hfind⟩ := find?_positionLiterals hderives
  constructor
  · have hnone : r.fault? = none ↔ (positionLiterals text.toList).find? (· < 0) = none := by
      rw [hfault, hfind, Option.map_eq_none_iff, Option.map_eq_none_iff]
    simp only [parse_eq_ok_iff, hderives, true_and, hnone, List.find?_eq_none, decide_eq_true_eq,
      Int.not_lt]
  · intro n hn
    rw [hfind] at hn
    obtain ⟨k, rfl, rfl⟩ := Option.map_eq_some_iff.1 hn
    exact ⟨_, parse_of_fault hderives hfault, rfl, rfl⟩

/-- Minus zero is no negative index, and of the two negative ones the first is reported. -/
theorem Rule.validity_exact_king :
    wholeRule "ace@-0 -> king@ -2".toList =
        .ok (.simple [⟨"ace", none, some (.absolute 0)⟩, ⟨"king", none, some (.absolute (-2))⟩]) ∧
      ∃ e, Rule.parse "ace@-0 -> king@ -2" = .error e ∧
        e.fault.message = "Absolute position must be non-negative (got -2)" := by
  have hread : wholeRule "ace@-0 -> king@ -2".toList = .ok (.simple
      [⟨"ace", none, some (.absolute 0)⟩, ⟨"king", none, some (.absolute (-2))⟩]) := by rfl
  obtain ⟨-, -, htext, -⟩ := Rule.validity_exact
  obtain ⟨e, he, -, hmessage⟩ := (htext _ _ hread).2 (-2) (by decide)
  exact ⟨hread, e, he, hmessage⟩

end Lineup
