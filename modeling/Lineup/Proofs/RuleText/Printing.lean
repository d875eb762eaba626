import Lineup.Proofs.Binary64.Reading
import Lineup.Proofs.Rule.Conditions
import Lineup.Proofs.RuleText.Acceptance
import Lineup.Proofs.RuleText.Spelled

/-!
# Printed rules read back

The text of a rule that can be written, with finite numbers, derives the same rule without groups
(`derives_text`). Wherever the text of a part stands, there is a phrase for that part, as long as no
character follows that would make a word longer.
-/

namespace Lineup

open Text (Blanks Stops stops_cons stops_nil)
open RuleText Grammar

/-! ### Texts and what follows them -/

namespace RuleText

variable {s r : List Char}

theorem mark_append {m n : String} : Mark (m ++ n) s r ↔ Mark m s (n.toList ++ r) := by
  rw [Mark, Mark, String.toList_append, List.append_assoc]

/-- A blank before a text. -/
theorem mark_space {m : String} : Mark m (" ".toList ++ (m.toList ++ r)) r :=
  .cons (by decide) (.refl _)

theorem mark_self {m : String} : Mark m (m.toList ++ r) r := .refl _

theorem stops_space : Stops isWordPart (" ".toList ++ r) := stops_cons.2 rfl

theorem stops_closing : Stops isWordPart (")".toList ++ r) := stops_cons.2 rfl

theorem stops_comma : Stops isWordPart (", ".toList ++ r) := stops_cons.2 rfl

/-! ### Comparisons -/

theorem withSign_natAbs (k : Int) : withSign (k < 0) k.natAbs = k := by
  rw [withSign]
  split
  · rename_i hk
    have hneg : k < 0 := of_decide_eq_true hk
    omega
  · rename_i hk
    have hpos : ¬ k < 0 := by simpa using hk
    omega

theorem index_text {n : Int64} (h : Mark (toString n.toInt) s r) : Index n s r := by
  rw [Mark, Binary64.toList_toString, signed_append] at h
  refine ⟨n.toInt < 0, _, Decimal.digits_toDigits _, h, ?_⟩
  rw [Nat.ofDigitChars_ten_toDigits, withSign_natAbs]

theorem termPhrase_text {t : Term} (ht : t.Spelled) (h : Mark t.text s r)
    (hr : Stops isWordPart r) : TermPhrase s t r := by
  obtain ⟨n, p⟩ := t
  obtain ⟨⟨hn, hk⟩, hp⟩ := ht
  rw [Term.text, mark_append] at h
  cases p with
  | none => exact .bare ⟨⟨hn, h, hr⟩, hk⟩
  | some p =>
    cases p with
    | relative k => exact (hp _ rfl).elim
    | absolute i =>
      rw [positionText, Position.text, String.toList_append, List.append_assoc] at h
      exact .pinned ⟨⟨hn, h, stops_cons.2 rfl⟩, hk⟩ mark_self (index_text mark_self)

theorem number_text {x : Binary64} (hx : x.isFinite) (h : Mark (x.text .plain) s r) :
    Number x s r := by
  obtain ⟨minus, whole, places, hchars, hw, hp, rfl⟩ := Binary64.spells_chars hx
  refine ⟨minus, whole, places, _, hw, hp, ?_, Decimal.isNearest_magnitude _, rfl⟩
  rwa [Mark, Binary64.text, String.toList_ofList, hchars, signed_append, List.append_assoc] at h

theorem operandPhrase_text {v : Operand} (hv : v.Spelled) (hx : ∀ x ∈ v.numbers, x.isFinite)
    (h : Mark v.text s r) (hr : Stops isWordPart r) : OperandPhrase s v r := by
  cases v with
  | number x => exact .number (number_text (hx x List.mem_cons_self) h)
  | boolean b =>
    cases b with
    | true => exact .true ⟨by decide, h, hr⟩
    | false => exact .false ⟨by decide, h, hr⟩
  | string v =>
    refine .string ⟨hv, ?_⟩
    rw [Operand.text, mark_append, mark_append] at h
    exact h
  | term t => exact .term (termPhrase_text hv h hr)

theorem comparisonPhrase_text {c : Comparison} (hc : c.Spelled)
    (hx : ∀ x ∈ c.operand.numbers, x.isFinite) (h : Mark c.text s r) (hr : Stops isWordPart r) :
    ComparisonPhrase s c r := by
  obtain ⟨t, o, v⟩ := c
  obtain ⟨ht, hv⟩ := hc
  simp only [Comparison.text, mark_append] at h
  exact .intro (termPhrase_text ht h stops_space) mark_space
    (operandPhrase_text hv hx mark_space hr)

/-! ### Conditions -/

theorem word_connective (op : Connective) (t : List Char) :
    Word op.word (" ".toList ++ (op.word.toList ++ (" ".toList ++ t))) (" ".toList ++ t) := by
  refine ⟨?_, mark_space, stops_space⟩
  cases op with
  | and | or => decide

theorem conditionPhrase_text {c : Condition} (hc : c.Spelled) (hx : ∀ x ∈ c.numbers, x.isFinite)
    (h : Mark c.text s r) (hr : Stops isWordPart r) :
    ConditionPhrase .primary s c.ungrouped r := by
  induction c generalizing s r with
  | comparison c => exact .comparison (comparisonPhrase_text hc hx h hr)
  | group c ih =>
    simp only [Condition.text, mark_append] at h
    have hin := ih hc hx mark_self (stops_closing (r := r))
    exact .parentheses h (.conjunction (.primary hin)) mark_self
  | join op c d ihc ihd =>
    obtain ⟨hc, hd⟩ := hc
    obtain ⟨hxc, hxd⟩ := List.forall_mem_append.1 hx
    simp only [Condition.text, mark_append] at h
    have hword := word_connective op (d.text.toList ++ (")".toList ++ r))
    have hright := ihd hd hxd mark_space (stops_closing (r := r))
    cases op with
    | and =>
      exact .parentheses h (.conjunction (.and (.primary
        (ihc hc hxc mark_self stops_space)) hword hright)) mark_self
    | or =>
      exact .parentheses h (.or (.conjunction (.primary
        (ihc hc hxc mark_self stops_space))) hword (.primary hright)) mark_self

/-! ### Patterns and rules -/

theorem slotPhrase_text {v : Slot} (hv : v.Spelled)
    (hx : ∀ c ∈ v.conditions, ∀ x ∈ c.numbers, x.isFinite) (h : Mark v.text s r)
    (hr : Stops isWordPart r) :
    SlotPhrase s (v.mapCondition Condition.ungrouped) r := by
  obtain ⟨n, c, p⟩ := v
  obtain ⟨⟨hn, hk⟩, hc, hp, hone⟩ := hv
  rw [Slot.text, mark_append, mark_append] at h
  cases c with
  | none =>
    cases p with
    | none => exact .bare ⟨⟨hn, h, hr⟩, hk⟩
    | some p =>
      cases p with
      | relative k => exact (hp _ rfl).elim
      | absolute i =>
        rw [positionText, Position.text, String.toList_append, List.append_assoc] at h
        exact .pinned ⟨⟨hn, h, stops_cons.2 rfl⟩, hk⟩ mark_self (index_text mark_self)
  | some c =>
    obtain rfl : p = none := hone.resolve_left nofun
    simp only [String.toList_append, List.append_assoc] at h
    have hx : ∀ x ∈ c.numbers, x.isFinite := hx c List.mem_cons_self
    have hcond := conditionPhrase_text (hc c rfl) hx mark_self (stops_closing (r := r))
    exact .constrained ⟨⟨hn, h, stops_cons.2 rfl⟩, hk⟩ mark_self
      (.conjunction (.primary hcond)) mark_self

theorem slotsPhrase_text {p : Pattern} (hne : p ≠ []) (hp : ∀ v ∈ p, v.Spelled)
    (hx : ∀ c ∈ p.conditions, ∀ x ∈ c.numbers, x.isFinite) (h : Mark p.text s r)
    (hr : Stops isWordPart r) :
    SlotsPhrase (Mark ",") s (p.mapConditions Condition.ungrouped) r := by
  induction p generalizing s with
  | nil => exact absurd rfl hne
  | cons v p ih =>
    obtain ⟨hv, hp⟩ := List.forall_mem_cons.1 hp
    rw [Pattern.conditions, List.flatMap_cons] at hx
    obtain ⟨hxv, hxp⟩ := List.forall_mem_append.1 hx
    cases p with
    | nil =>
      rw [Pattern.text, List.map_cons, List.map_nil, String.intercalate_singleton] at h
      exact .one (slotPhrase_text hv hxv h hr)
    | cons w p =>
      rw [Pattern.text, List.map_cons, List.map_cons, String.intercalate_cons_cons, mark_append,
        mark_append] at h
      have hrest := ih (List.cons_ne_nil w p) hp hxp
        (mark_space (m := Pattern.text (w :: p)) (r := r))
      exact .more (slotPhrase_text hv hxv h stops_comma) mark_self hrest

theorem patternPhrase_text {p : Pattern} (hp : p.Spelled)
    (hx : ∀ c ∈ p.conditions, ∀ x ∈ c.numbers, x.isFinite) (h : Mark p.text s r)
    (hr : Stops isWordPart r) :
    PatternPhrase s (p.mapConditions Condition.ungrouped) r :=
  .commas (slotsPhrase_text hp.ne_nil hp.slots hx h hr)

theorem stops_spaced {w : String} : Stops isWordPart ((" " ++ w ++ " ").toList ++ r) := by
  rw [String.toList_append, String.toList_append, List.append_assoc, List.append_assoc]
  exact stops_space

/-- A keyword between blanks. -/
theorem word_spaced {w : String} (hw : IsWord w) :
    Word w ((" " ++ w ++ " ").toList ++ r) (" ".toList ++ r) := by
  refine ⟨hw, ?_, stops_space⟩
  rw [String.toList_append, String.toList_append, List.append_assoc, List.append_assoc]
  exact mark_space

theorem rulePhrase_text {v : Rule} (hv : v.Spelled)
    (hx : ∀ c ∈ v.conditions, ∀ x ∈ c.numbers, x.isFinite) (h : Mark v.text s []) :
    RulePhrase s v.ungrouped [] := by
  cases v with
  | simple p => exact .simple (patternPhrase_text hv hx h (stops_nil _))
  | conditional c p q =>
    obtain ⟨hc, hp, hq⟩ := hv
    rw [Rule.conditions, List.forall_mem_cons, List.forall_mem_append] at hx
    obtain ⟨hxc, hxp, hxq⟩ := hx
    have hif : "if " = "if" ++ " " := by decide
    have hthen : " then " = " " ++ "then" ++ " " := by decide
    have helse : " else " = " " ++ "else" ++ " " := by decide
    have hwif : IsWord "if" := by decide
    have hwthen : IsWord "then" := by decide
    have hwelse : IsWord "else" := by decide
    cases q with
    | none =>
      simp only [Rule.text, hif, hthen, mark_append] at h
      exact .conditional ⟨hwif, h, stops_space⟩
        (.conjunction (.primary (conditionPhrase_text hc hxc mark_space stops_spaced)))
        (word_spaced hwthen) (patternPhrase_text hp hxp mark_space (stops_nil _))
    | some q =>
      simp only [Rule.text, hif, hthen, helse, mark_append] at h
      have htail : (" " ++ "else" ++ " " ++ q.text).toList =
          (" " ++ "else" ++ " ").toList ++ q.text.toList := String.toList_append
      rw [htail, List.append_assoc] at h
      have hxq : ∀ c ∈ q.conditions, ∀ x ∈ c.numbers, x.isFinite := by simpa using hxq
      exact .alternative ⟨hwif, h, stops_space⟩
        (.conjunction (.primary (conditionPhrase_text hc hxc mark_space stops_spaced)))
        (word_spaced hwthen) (patternPhrase_text hp hxp mark_space stops_spaced)
        (word_spaced hwelse) (patternPhrase_text (hq q rfl) hxq mark_space (stops_nil _))

/-- The text of a rule that can be written derives that rule, but for groups. -/
theorem derives_text {r : Rule} (hr : r.Spelled) (hx : ∀ x ∈ r.numbers, x.isFinite) :
    Derives r.text.toList r.ungrouped := by
  refine ⟨[], rulePhrase_text hr (List.forall_mem_flatMap.1 hx) ?_, Blanks.refl []⟩
  simpa using mark_self (m := r.text) (r := [])

end RuleText

theorem Rule.parse_of_printable {r : Rule} (h : r.Printable) :
    Rule.parse r.text = .ok r.ungrouped :=
  parse_of_derives (derives_text h.spelled h.finite) (by rw [fault?_ungrouped, h.fault?])

/-- **Printing and reading**: the text of a rule that can be written reads back as the same rule,
except that groups leave no mark, which makes no difference to any verdict. -/
theorem Rule.parse_text (r : Rule) (h : r.Printable) :
    Rule.parse r.text = .ok r.ungrouped ∧
      ∀ o hand, r.ungrouped.matched o hand = r.matched o hand :=
  ⟨parse_of_printable h, fun o hand => matched_ungrouped o hand r⟩

theorem Rule.parse_text_grouped :
    Rule.parse "if ((a@0 > 1.5 or (b = \"x y\"))) then k(c != true), m@2 else n" =
      .ok (.conditional (.join .or
          (.comparison ⟨⟨"a", some (.absolute 0)⟩, .gt, .number ⟨0x3ff8000000000000⟩⟩)
          (.comparison ⟨⟨"b", none⟩, .eq, .string "x y"⟩))
        [⟨"k", some (.comparison ⟨⟨"c", none⟩, .ne, .boolean true⟩), none⟩,
          ⟨"m", none, some (.absolute 2)⟩] (some [⟨"n", none, none⟩])) := by
  have h := (Rule.parse_text (.conditional
    (.group (.join .or
      (.comparison ⟨⟨"a", some (.absolute 0)⟩, .gt, .number ⟨0x3ff8000000000000⟩⟩)
      (.group (.comparison ⟨⟨"b", none⟩, .eq, .string "x y"⟩))))
    [⟨"k", some (.comparison ⟨⟨"c", none⟩, .ne, .boolean true⟩), none⟩,
      ⟨"m", none, some (.absolute 2)⟩] (some [⟨"n", none, none⟩])) (by decide)).1
  refine Eq.trans (congrArg Rule.parse ?_) h
  decide +kernel

end Lineup
