import Lineup.Proofs.RuleText.Readers
import Lineup.Proofs.RuleText.Tokens

/-!
# What is read is there

Every reader that succeeds behind blanks has read a phrase of the grammar, and the phrase is what
it answers. For conditions this goes by the length of the text, as their readers call each other
on ever shorter ones; a chain that is read link by link is a phrase at each of its links.
-/

namespace Lineup.RuleText

open Text (skipBlanks Blanks Remains remains_of_skipBlanks)
open Grammar

theorem mark_of_skipBlanks {c : Char} {s r : List Char} (h : skipBlanks s = c :: r) :
    Blanks s (c :: r) :=
  h ▸ Blanks.skip s

/-! ### Comparisons -/

theorem position?_sound {p : Option Position} {s r : List Char} (h : position? s = .ok (p, r)) :
    (p = none ∧ r = s) ∨
      ∃ t i, Mark "@" s t ∧ Index i t r ∧ p = some (.absolute i) := by
  rw [position?] at h
  split at h
  · rename_i t ht
    split at h
    · rename_i i q hi
      obtain ⟨rfl, rfl⟩ := Prod.mk.inj (Except.ok.inj h)
      exact .inr ⟨t, i, mark_of_skipBlanks ht, (index_eq_ok_iff.1 hi).1, rfl⟩
    · cases h
  · obtain ⟨rfl, rfl⟩ := Prod.mk.inj (Except.ok.inj h)
    exact .inl ⟨rfl, rfl⟩

theorem termPhrase_of_term {e : Expectation} {t : Term} {s r : List Char}
    (h : term e (skipBlanks s) = .ok (t, r)) : TermPhrase s t r := by
  rw [term] at h
  split at h
  · cases h
  rename_i n q hn
  have hname := name?_eq_some_iff.1 hn
  split at h
  · rename_i p q' hp
    obtain ⟨rfl, rfl⟩ := Prod.mk.inj (Except.ok.inj h)
    rcases position?_sound hp with ⟨rfl, rfl⟩ | ⟨u, i, hm, hi, rfl⟩
    · exact .bare hname
    · exact .pinned hname hm hi
  · cases h

theorem operandPhrase_of_operand {v : Operand} {s r : List Char}
    (h : operand (skipBlanks s) = .ok (v, r)) : OperandPhrase s v r := by
  rw [operand.eq_def] at h
  split at h
  · rename_i t ht
    split at h
    · rename_i hs
      obtain ⟨rfl, rfl⟩ := Prod.mk.inj (Except.ok.inj h)
      exact .string (quotation_iff.2 ⟨t, ht, hs⟩)
    · cases h
  split at h
  · rename_i hx
    obtain ⟨rfl, rfl⟩ := Prod.mk.inj (Except.ok.inj h)
    exact .number (number?_sound hx)
  split at h
  · rename_i b q hb
    obtain ⟨rfl, rfl⟩ := Prod.mk.inj (Except.ok.inj h)
    rw [boolean?] at hb
    split at hb
    · rename_i hk
      obtain ⟨rfl, rfl⟩ := Prod.mk.inj (Option.some.inj hb)
      exact .true (keyword?_eq_some_iff.1 hk)
    · obtain ⟨q', hk, he⟩ := Option.map_eq_some_iff.1 hb
      obtain ⟨rfl, rfl⟩ := Prod.mk.inj he
      exact .false (keyword?_eq_some_iff.1 hk)
  split at h
  · rename_i ht
    obtain ⟨rfl, rfl⟩ := Prod.mk.inj (Except.ok.inj h)
    exact .term (termPhrase_of_term ht)
  · cases h

theorem comparisonPhrase_of_comparison {c : Comparison} {s r : List Char}
    (h : comparison (skipBlanks s) = .ok (c, r)) : ComparisonPhrase s c r := by
  rw [comparison] at h
  split at h
  · cases h
  rename_i t q ht
  split at h
  · cases h
  rename_i o q' ho
  split at h
  · rename_i v q'' hv
    obtain ⟨rfl, rfl⟩ := Prod.mk.inj (Except.ok.inj h)
    exact .intro (termPhrase_of_term ht) (relation?_sound ho) (operandPhrase_of_operand hv)
  · cases h

/-! ### Conditions -/

/-- The tier of the links of a chain. -/
def linkTier : Connective → Tier
  | .and => .primary
  | .or => .conjunction

/-- The tier of a chain. -/
def chainTier : Connective → Tier
  | .and => .conjunction
  | .or => .disjunction

theorem Grammar.ConditionPhrase.link {op : Connective} {s r : List Char} {c : Condition}
    (h : ConditionPhrase (linkTier op) s c r) : ConditionPhrase (chainTier op) s c r := by
  cases op with
  | and => exact .primary h
  | or => exact .conjunction h

theorem Grammar.ConditionPhrase.join {op : Connective} {s t u r : List Char} {c d : Condition}
    (hc : ConditionPhrase (chainTier op) s c t) (hw : Word op.word t u)
    (hd : ConditionPhrase (linkTier op) u d r) :
    ConditionPhrase (chainTier op) s (.join op c d) r := by
  cases op with
  | and => exact .and hc hw hd
  | or => exact .or hc hw hd

/-- If links are phrases on all shorter texts, a chain stays a phrase with each link it is
continued by. -/
theorem conditionPhrase_of_moreLinks {op : Connective} {n : Nat} {s₀ : List Char}
    (hlink : ∀ t c r, t.length < n → Answers (link op t) c r →
      ConditionPhrase (linkTier op) t c r)
    {s r : List Char} {left d : Condition} (hs : s.length ≤ n)
    (hleft : ConditionPhrase (chainTier op) s₀ left s) (h : Answers (moreLinks op left s) d r) :
    ConditionPhrase (chainTier op) s₀ d r := by
  induction hn : s.length using Nat.strong_induction_on generalizing s left with
  | _ k ih =>
    subst hn
    cases hk : keyword? op.word (skipBlanks s) with
    | none =>
      obtain ⟨rfl, rfl⟩ := (answers_moreLinks_none hk).1 h
      exact hleft
    | some t =>
      obtain ⟨c, q, hc, hmore⟩ := (answers_moreLinks_some hk).1 h
      have ht : Remains t s := (remains_keyword? hk).skipBlanks
      have hq : Remains q s := Remains.trans hc.property ht
      have hjoin := hleft.join (keyword?_eq_some_iff.1 hk) (hlink t c q (ht.2.trans_le hs) hc)
      exact ih q.length hq.2 (hq.2.le.trans hs) hjoin hmore rfl

theorem conditionPhrase_of_chain {op : Connective} {s r : List Char} {d : Condition}
    (hlink : ∀ t c r, t.length ≤ s.length → Answers (link op t) c r →
      ConditionPhrase (linkTier op) t c r)
    (h : Answers (chain op s) d r) : ConditionPhrase (chainTier op) s d r := by
  obtain ⟨c, q, hc, hmore⟩ := answers_chain.1 h
  have hq : Remains q s := hc.property
  exact conditionPhrase_of_moreLinks (fun t c r ht => hlink t c r ht.le) hq.2.le
    (hlink s c q le_rfl hc).link hmore

theorem conditionPhrase_of_primary {s r : List Char} {c : Condition}
    (hcondition : ∀ t c r, t.length < s.length → Answers (condition t) c r →
      ConditionPhrase .disjunction t c r)
    (h : Answers (primary s) c r) : ConditionPhrase .primary s c r := by
  by_cases hopen : ∃ t, skipBlanks s = '(' :: t
  · obtain ⟨t, ht⟩ := hopen
    obtain ⟨q, hc, hq⟩ := (answers_primary_open ht).1 h
    exact .parentheses (mark_of_skipBlanks ht)
      (hcondition t c q (remains_of_skipBlanks ht).2 hc) (mark_of_skipBlanks hq)
  · obtain ⟨d, hd, rfl⟩ := (answers_primary_plain (not_exists.1 hopen)).1 h
    exact .comparison (comparisonPhrase_of_comparison hd)

theorem conditionPhrase_of_condition {s r : List Char} {c : Condition}
    (h : Answers (condition s) c r) : ConditionPhrase .disjunction s c r := by
  induction hn : s.length using Nat.strong_induction_on generalizing s c r with
  | _ n ih =>
    subst hn
    have hprimary : ∀ t c r, t.length ≤ s.length → Answers (primary t) c r →
        ConditionPhrase .primary t c r := fun t c r ht =>
      conditionPhrase_of_primary fun u c r hu hc => ih u.length (hu.trans_le ht) hc rfl
    have hand : ∀ t c r, t.length ≤ s.length → Answers (chain .and t) c r →
        ConditionPhrase .conjunction t c r := fun t c r ht =>
      conditionPhrase_of_chain fun u c r hu hc =>
        hprimary u c r (hu.trans ht) (answers_link_and.1 hc)
    exact conditionPhrase_of_chain (fun t c r ht hc => hand t c r ht (answers_link_or.1 hc)) h

/-! ### Patterns and rules -/

theorem slotPhrase_of_slot {e : Expectation} {v : Slot} {s r : List Char}
    (h : slot e (skipBlanks s) = .ok (v, r)) : SlotPhrase s v r := by
  rw [slot] at h
  split at h
  · cases h
  rename_i n t hn
  have hname := name?_eq_some_iff.1 hn
  rw [slotTail] at h
  split at h
  · rename_i u hu
    split at h
    · cases h
    rename_i c q hc
    have hcondition : Answers (condition u) c q.1 := ⟨q.2, hc⟩
    split at h
    · rename_i r' hr
      obtain ⟨rfl, rfl⟩ := Prod.mk.inj (Except.ok.inj h)
      exact .constrained hname (mark_of_skipBlanks hu) (conditionPhrase_of_condition hcondition)
        (mark_of_skipBlanks hr)
    · cases h
  · split at h
    · cases h
    rename_i p q hp
    obtain ⟨rfl, rfl⟩ := Prod.mk.inj (Except.ok.inj h)
    rcases position?_sound hp with ⟨rfl, rfl⟩ | ⟨u, i, hm, hi, rfl⟩
    · exact .bare hname
    · exact .pinned hname hm hi

/-- What stands between two slots. -/
def Separator.Stands : Separator → List Char → List Char → Prop
  | comma => Mark ","
  | blanks => Eq

theorem Separator.stands_of_next? {sep : Separator} {s t : List Char}
    (h : sep.next? s = some t) : ∃ u, sep.Stands s u ∧ t = skipBlanks u := by
  cases sep with
  | comma =>
    simp only [next?] at h
    split at h
    · rename_i u hu
      cases h
      exact ⟨u, mark_of_skipBlanks hu, rfl⟩
    · cases h
  | blanks =>
    simp only [next?] at h
    split at h
    · cases h
      exact ⟨s, rfl, rfl⟩
    · cases h

theorem slotsPhrase_of_moreSlots {sep : Separator} {s₀ s r : List Char} {v : Slot} {p : Pattern}
    (hv : SlotPhrase s₀ v s) (h : moreSlots sep s = .ok (p, r)) :
    SlotsPhrase sep.Stands s₀ (v :: p) r := by
  induction hn : s.length using Nat.strong_induction_on generalizing s₀ s v p with
  | _ n ih =>
    subst hn
    rw [moreSlots] at h
    split at h
    · obtain ⟨rfl, rfl⟩ := Prod.mk.inj (Except.ok.inj h)
      exact .one hv
    rename_i t ht
    obtain ⟨u, hsep, rfl⟩ := Separator.stands_of_next? ht
    split at h
    · cases h
    rename_i w q hw
    have hlt : q.length < s.length :=
      ((remains_slot hw).after (Separator.next?_suffix ht)).2
    dsimp only at h
    split at h
    · cases h
    rename_i ws q' hws
    obtain ⟨rfl, rfl⟩ := Prod.mk.inj (Except.ok.inj h)
    exact .more hv hsep (ih q.length hlt (slotPhrase_of_slot hw) hws rfl)

theorem patternPhrase_of_pattern {p : Pattern} {s r : List Char} (h : pattern s = .ok (p, r)) :
    PatternPhrase s p r := by
  rw [pattern] at h
  split at h
  · cases h
  rename_i v t hv
  have hslot := slotPhrase_of_slot hv
  split at h
  · rename_i u hu
    split at h
    · cases h
    rename_i w q hw
    obtain ⟨rfl, rfl⟩ := Prod.mk.inj (Except.ok.inj h)
    exact .arrow hslot (hu ▸ Blanks.skip t : Blanks t ('-' :: '>' :: u)) (slotPhrase_of_slot hw)
  · dsimp only at h
    split at h
    · cases h
    rename_i vs q hvs
    obtain ⟨rfl, rfl⟩ := Prod.mk.inj (Except.ok.inj h)
    have hslots := slotsPhrase_of_moreSlots hslot hvs
    split at hslots
    · exact .commas hslots
    · exact .sideBySide hslots

theorem rulePhrase_of_rule {r : Rule} {s rest : List Char} (h : rule s = .ok (r, rest)) :
    RulePhrase s r rest := by
  rw [rule] at h
  split at h
  · rename_i t hif
    rw [conditionalTail] at h
    split at h
    · cases h
    rename_i c q hc
    have hcondition := conditionPhrase_of_condition ⟨q.2, hc⟩
    split at h
    · cases h
    rename_i u hthen
    split at h
    · cases h
    rename_i p q' hp
    split at h
    · cases h
    rename_i p' q'' ha
    obtain ⟨rfl, rfl⟩ := Prod.mk.inj (Except.ok.inj h)
    have hif := keyword?_eq_some_iff.1 hif
    have hthen := keyword?_eq_some_iff.1 hthen
    have hpattern := patternPhrase_of_pattern hp
    rw [alternative] at ha
    split at ha
    · obtain ⟨rfl, rfl⟩ := Prod.mk.inj (Except.ok.inj ha)
      exact .conditional hif hcondition hthen hpattern
    · rename_i v helse
      split at ha
      · cases ha
      rename_i p₂ q₂ hp₂
      obtain ⟨rfl, rfl⟩ := Prod.mk.inj (Except.ok.inj ha)
      exact .alternative hif hcondition hthen hpattern (keyword?_eq_some_iff.1 helse)
        (patternPhrase_of_pattern hp₂)
  · split at h
    · cases h
    rename_i p q hp
    obtain ⟨rfl, rfl⟩ := Prod.mk.inj (Except.ok.inj h)
    exact .simple (patternPhrase_of_pattern hp)

/-- A text that is read as a rule is one. -/
theorem derives_of_wholeRule {r : Rule} {s : List Char} (h : wholeRule s = .ok r) :
    Derives s r := by
  rw [wholeRule] at h
  split at h
  · cases h
  rename_i r' rest hr
  split at h
  · rename_i hrest
    obtain rfl := Except.ok.inj h
    exact ⟨rest, rulePhrase_of_rule hr, hrest ▸ Blanks.skip rest⟩
  · cases h

end Lineup.RuleText
