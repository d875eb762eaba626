import Lineup.Proofs.RuleText.Soundness

/-!
# What is there is read

Every phrase of the grammar is read, as long as what follows does not extend it: after a condition
no further link of a chain, after a pattern no further slot. In a rule that is a whole text this is
always so, because there each phrase is followed by the token that comes next in the rule, or by
nothing. Together with the other direction this makes reading and the grammar agree.
-/

namespace Lineup.RuleText

open Text (skipBlanks Blanks Stops stops_cons stops_nil blanks_iff stops_of_skipBlanks isBlank
  ne_of_tells)
open Grammar

/-! ### What ends a phrase -/

theorem ended_of_skipBlanks {c : Char} {r t : List Char} (h : skipBlanks r = c :: t)
    (hc : canExtend c = false) : Ended r := by
  rw [Ended, h]
  exact stops_cons.2 hc

theorem ended_of_blanks {r : List Char} (h : Blanks r []) : Ended r := by
  rw [Ended, (blanks_iff (stops_nil _)).1 h]
  exact stops_nil _

theorem canExtend_of_isWordStart {c : Char} (h : isWordStart c) : canExtend c = false := by
  simp only [canExtend, Bool.or_eq_false_iff, decide_eq_false_iff_not]
  exact ⟨⟨⟨isDigit_of_isWordStart h, ne_of_tells h rfl⟩, ne_of_tells h rfl⟩, ne_of_tells h rfl⟩

theorem Grammar.Word.head {w : String} {s r : List Char} (h : Word w s r) :
    ∃ c t, skipBlanks s = c :: t ∧ isWordStart c := by
  obtain ⟨hw, hm, -⟩ := h
  obtain ⟨c, l, hl, hc, -⟩ := id hw
  rw [mark_iff (stops_of_isWord hw r), hl] at hm
  exact ⟨c, l ++ r, hm, hc⟩

theorem Grammar.Word.ended {w : String} {s r : List Char} (h : Word w s r) : Ended s := by
  obtain ⟨c, t, hs, hc⟩ := h.head
  exact ended_of_skipBlanks hs (canExtend_of_isWordStart hc)

theorem keyword?_eq_none_of_word {v w : String} {s r : List Char} (h : Word v s r) (hne : v ≠ w) :
    keyword? w (skipBlanks s) = none := by
  rw [keyword?, word_iff.1 h]
  exact if_neg hne

theorem keyword?_eq_none_of_head {w : String} {c : Char} {s t : List Char}
    (h : skipBlanks s = c :: t) (hc : isWordStart c = false) :
    keyword? w (skipBlanks s) = none := by
  simp [keyword?, word?, h, hc]

/-! ### Comparisons -/

theorem position?_eq_none {r : List Char} (h : Ended r) : position? r = .ok (none, r) := by
  rw [position?]
  split
  · rename_i t ht
    rw [Ended, ht] at h
    cases stops_cons.1 h
  · rfl

theorem position?_pinned {i : Int64} {s t r : List Char} (hm : Mark "@" s t) (hi : Index i t r)
    (hr : Ended r) : position? s = .ok (some (.absolute i), r) := by
  have hs : skipBlanks s = '@' :: t := (mark_iff (stops_cons.2 rfl)).1 hm
  simp only [position?, hs, index_eq_ok_iff.2 ⟨hi, stops_isDigit hr.stops⟩]

theorem term_complete {e : Expectation} {t : Term} {s r : List Char} (h : TermPhrase s t r)
    (hr : Ended r) : term e (skipBlanks s) = .ok (t, r) := by
  cases h with
  | bare hn => simp only [term, name?_eq_some_iff.2 hn, position?_eq_none hr]
  | pinned hn hm hi => simp only [term, name?_eq_some_iff.2 hn, position?_pinned hm hi hr]

theorem Grammar.TermPhrase.word {t : Term} {s r : List Char} (h : TermPhrase s t r) :
    ∃ q, Word t.name s q ∧ t.name ∉ keywords := by
  cases h with
  | bare hn => exact ⟨_, hn⟩
  | pinned hn _ _ => exact ⟨_, hn⟩

/-- Where a word starts, an operand is no string and no number. -/
theorem operand_of_word {w : String} {s r : List Char} (h : Word w s r) :
    operand (skipBlanks s) = match boolean? (skipBlanks s) with
      | some (b, q) => .ok (.boolean b, q)
      | none => match term .value (skipBlanks s) with
        | .ok (t, q) => .ok (.term t, q)
        | .error e => .error e := by
  obtain ⟨c, t, hs, hc⟩ := h.head
  have hnumber : number? (skipBlanks s) = none := by
    apply number?_eq_none
    rw [hs, stops_cons, isDigit_of_isWordStart hc, Bool.false_or, decide_eq_false_iff_not]
    exact ne_of_tells hc rfl
  rw [operand.eq_def]
  split
  · rename_i q hq
    rw [hq] at hs
    exact absurd (List.cons.inj hs).1.symm (ne_of_tells hc rfl)
  · split
    · rename_i hx
      rw [hnumber] at hx
      cases hx
    · rfl

theorem operand_complete {v : Operand} {s r : List Char} (h : OperandPhrase s v r)
    (hr : Ended r) : operand (skipBlanks s) = .ok (v, r) := by
  cases h with
  | number hx =>
    have hnumber := number?_complete hx hr.stops
    rw [operand.eq_def]
    split
    · rename_i q hq
      rw [hq, number?_eq_none (stops_cons.2 rfl)] at hnumber
      cases hnumber
    · rw [hnumber]
  | true hw => simp only [operand_of_word hw, boolean?, keyword?_eq_some_iff.2 hw]
  | false hw =>
    have hne : keyword? "true" (skipBlanks s) = none := keyword?_eq_none_of_word hw (by decide)
    simp only [operand_of_word hw, boolean?, hne, keyword?_eq_some_iff.2 hw, Option.map_some]
  | string hv =>
    obtain ⟨t, ht, htail⟩ := quotation_iff.1 hv
    simp only [operand, ht, htail]
  | term ht =>
    obtain ⟨q, hw, hk⟩ := ht.word
    have hne : ∀ w ∈ keywords, keyword? w (skipBlanks s) = none := fun w hmem =>
      keyword?_eq_none_of_word hw fun he => hk (he ▸ hmem)
    have htrue := hne "true" (by decide)
    have hfalse := hne "false" (by decide)
    simp only [operand_of_word hw, boolean?, htrue, hfalse, Option.map_none, term_complete ht hr]

/-- No operand starts with a character of a relation. -/
theorem Grammar.OperandPhrase.stops {v : Operand} {s r : List Char} (h : OperandPhrase s v r) :
    Stops (fun c => c = '=') s := by
  have hword : ∀ {w q}, Word w s q → Stops (fun c => c = '=') (skipBlanks s) := by
    intro w q hw
    obtain ⟨c, t, hs, hc⟩ := hw.head
    rw [hs, stops_cons, decide_eq_false_iff_not]
    exact ne_of_tells hc rfl
  refine stops_of_skipBlanks ?_ fun c hc => ?_
  · cases h with
    | number hx =>
      obtain ⟨minus, whole, places, m, hd, -, hb, -⟩ := hx
      rw [(blanks_iff (stops_signed hd rfl (fun _ => isBlank_of_isDigit) _ _)).1 hb]
      exact stops_signed hd rfl (fun c hc => decide_eq_false (ne_of_tells hc rfl)) _ _
    | true hw | false hw => exact hword hw
    | string hv =>
      obtain ⟨t, ht, -⟩ := quotation_iff.1 hv
      rw [ht]
      exact stops_cons.2 rfl
    | term ht => exact hword ht.word.choose_spec.1
  · exact decide_eq_false (ne_of_tells hc rfl)

theorem ended_of_symbol {o : Relation} {s r : List Char} (h : Mark o.symbol s r) : Ended s := by
  rw [mark_iff (stops_symbol o r)] at h
  cases o <;> exact ended_of_skipBlanks h rfl

theorem comparison_complete {c : Comparison} {s r : List Char} (h : ComparisonPhrase s c r)
    (hr : Ended r) : comparison (skipBlanks s) = .ok (c, r) := by
  obtain ⟨ht, ho, hv⟩ := h
  simp only [comparison, term_complete ht (ended_of_symbol ho), relation?_complete ho hv.stops,
    operand_complete hv hr]

/-! ### Conditions -/

/-- What reading makes of a phrase of each tier. A chain is read together with the links that
follow it. -/
def Completes : Tier → List Char → Condition → List Char → Prop
  | .primary, s, c, r => Answers (primary s) c r
  | .conjunction, s, c, r => ∀ d q, Answers (moreLinks .and c r) d q → Answers (chain .and s) d q
  | .disjunction, s, c, r => keyword? (Connective.word .and) (skipBlanks r) = none →
    ∀ d q, Answers (moreLinks .or c r) d q → Answers (chain .or s) d q

/-- Says that no chain of conditions goes on with `r`. -/
structure Unlinked (r : List Char) : Prop where
  ended : Ended r
  and : keyword? (Connective.word .and) (skipBlanks r) = none
  or : keyword? (Connective.word .or) (skipBlanks r) = none

theorem unlinked_of_closing {r q : List Char} (h : Mark ")" r q) : Unlinked r := by
  have hr : skipBlanks r = ')' :: q := (mark_iff (stops_cons.2 rfl)).1 h
  exact ⟨ended_of_skipBlanks hr rfl, keyword?_eq_none_of_head hr rfl,
    keyword?_eq_none_of_head hr rfl⟩

theorem unlinked_of_then {r q : List Char} (h : Word "then" r q) : Unlinked r :=
  ⟨h.ended, keyword?_eq_none_of_word h (by decide), keyword?_eq_none_of_word h (by decide)⟩

theorem Completes.condition {s r : List Char} {c : Condition}
    (h : Completes .disjunction s c r) (hr : Unlinked r) : Answers (condition s) c r :=
  h hr.and c r ((answers_moreLinks_none hr.or).2 ⟨rfl, rfl⟩)

theorem Grammar.ComparisonPhrase.word {c : Comparison} {s r : List Char}
    (h : ComparisonPhrase s c r) : ∃ w q, Word w s q := by
  obtain ⟨ht, -, -⟩ := h
  exact ⟨_, _, ht.word.choose_spec.1⟩

theorem Grammar.ConditionPhrase.completes {tier : Tier} {s r : List Char} {c : Condition}
    (h : ConditionPhrase tier s c r) (hr : Ended r) : Completes tier s c r := by
  induction h with
  | comparison hc =>
    obtain ⟨w, q, hw⟩ := hc.word
    refine (answers_primary_plain fun t ht => ?_).2 ⟨_, comparison_complete hc hr, rfl⟩
    obtain ⟨c, l, hs, hstart⟩ := hw.head
    rw [hs] at ht
    exact ne_of_tells hstart rfl (List.cons.inj ht).1
  | parentheses hopen hc hclose ih =>
    have hs := (mark_iff (stops_cons.2 rfl)).1 hopen
    have hu := (mark_iff (stops_cons.2 rfl)).1 hclose
    have hend := unlinked_of_closing hclose
    exact (answers_primary_open hs).2 ⟨_, (ih hend.ended).condition hend, hu⟩
  | primary hc ih =>
    intro d q hmore
    exact answers_chain.2 ⟨_, _, answers_link_and.2 (ih hr), hmore⟩
  | and hc hw hd ihc ihd =>
    intro d q hmore
    have hw : Word (Connective.word .and) _ _ := hw
    refine ihc hw.ended d q ((answers_moreLinks_some (keyword?_eq_some_iff.2 hw)).2 ?_)
    exact ⟨_, _, answers_link_and.2 (ihd hr), hmore⟩
  | conjunction hc ih =>
    intro hand d q hmore
    have hchain := ih hr _ _ ((answers_moreLinks_none hand).2 ⟨rfl, rfl⟩)
    exact answers_chain.2 ⟨_, _, answers_link_or.2 hchain, hmore⟩
  | or hc hw hd ihc ihd =>
    intro hand d q hmore
    have hw : Word (Connective.word .or) _ _ := hw
    have hno := keyword?_eq_none_of_word hw (w := Connective.word .and) (by decide)
    refine ihc hw.ended hno d q ((answers_moreLinks_some (keyword?_eq_some_iff.2 hw)).2 ?_)
    have hchain := ihd hr _ _ ((answers_moreLinks_none hand).2 ⟨rfl, rfl⟩)
    exact ⟨_, _, answers_link_or.2 hchain, hmore⟩

theorem condition_complete {s r : List Char} {c : Condition}
    (h : ConditionPhrase .disjunction s c r) (hr : Unlinked r) : Answers (condition s) c r :=
  (h.completes hr.ended).condition hr

/-! ### Patterns and rules -/

theorem Grammar.SlotPhrase.name {v : Slot} {s r : List Char} (h : SlotPhrase s v r) :
    ∃ q, Name v.name s q := by
  cases h with
  | bare hn | constrained hn _ _ _ | pinned hn _ _ => exact ⟨_, hn⟩

theorem slot_complete {e : Expectation} {v : Slot} {s r : List Char} (h : SlotPhrase s v r)
    (hr : Ended r) : slot e (skipBlanks s) = .ok (v, r) := by
  cases h with
  | bare hn =>
    simp only [slot, name?_eq_some_iff.2 hn, slotTail, position?_eq_none hr]
    split
    · rename_i t ht
      rw [Ended, ht] at hr
      cases stops_cons.1 hr
    · rfl
  | constrained hn hopen hc hclose =>
    have ht := (mark_iff (stops_cons.2 rfl)).1 hopen
    have hv := (mark_iff (stops_cons.2 rfl)).1 hclose
    obtain ⟨hrest, hcond⟩ := condition_complete hc (unlinked_of_closing hclose)
    simp only [slot, name?_eq_some_iff.2 hn, slotTail]
    simp [ht, hcond, hv]
  | pinned hn hm hi =>
    have ht := (mark_iff (stops_cons.2 rfl)).1 hm
    simp only [slot, name?_eq_some_iff.2 hn, slotTail, position?_pinned hm hi hr]
    simp [ht]

theorem Separator.Stands.ended {sep : Separator} {t u q : List Char} {v : Slot}
    (h : sep.Stands t u) (hv : SlotPhrase u v q) : Ended t := by
  cases sep with
  | comma =>
    exact ended_of_skipBlanks ((mark_iff (stops_cons.2 rfl)).1 h) (by decide)
  | blanks =>
    obtain rfl : t = u := h
    obtain ⟨q, hn⟩ := hv.name
    exact hn.1.ended

theorem Separator.Stands.next? {sep : Separator} {t u q : List Char} {v : Slot}
    (h : sep.Stands t u) (hv : SlotPhrase u v q) : sep.next? t = some (skipBlanks u) := by
  cases sep with
  | comma =>
    have ht : skipBlanks t = ',' :: u := (mark_iff (stops_cons.2 rfl)).1 h
    simp only [Separator.next?, ht]
  | blanks =>
    obtain rfl : t = u := h
    obtain ⟨q, hn⟩ := hv.name
    simp only [Separator.next?, name?_eq_some_iff.2 hn, Option.isSome_some, if_true]

theorem moreSlots_none {sep : Separator} {s : List Char} (h : sep.next? s = none) :
    moreSlots sep s = .ok ([], s) := by
  rw [moreSlots]
  split
  · rfl
  · rename_i t ht
    rw [h] at ht
    cases ht

theorem moreSlots_some {sep : Separator} {s t q r : List Char} {v : Slot} {p : Pattern}
    (h : sep.next? s = some t) (hv : slot .element t = .ok (v, q))
    (hp : moreSlots sep q = .ok (p, r)) : moreSlots sep s = .ok (v :: p, r) := by
  rw [moreSlots]
  split
  · rename_i hn
    rw [h] at hn
    cases hn
  · rename_i t' ht
    obtain rfl : t = t' := Option.some.inj (h.symm.trans ht)
    split
    · rename_i f hf
      rw [hv] at hf
      cases hf
    · rename_i v' q' hv'
      obtain ⟨rfl, rfl⟩ := Prod.mk.inj (Except.ok.inj (hv.symm.trans hv'))
      simp only [hp]

theorem Grammar.SlotsPhrase.slot {sep : List Char → List Char → Prop} {s r : List Char}
    {p : Pattern} (h : SlotsPhrase sep s p r) : ∃ v q, SlotPhrase s v q := by
  cases h with
  | one hv | more hv _ _ => exact ⟨_, _, hv⟩

theorem moreSlots_complete (sep : Separator) {u r : List Char} {p : Pattern} (hr : Ended r)
    (hnext : sep.next? r = none) (hp : SlotsPhrase sep.Stands u p r) {t : List Char}
    (ht : sep.Stands t u) : moreSlots sep t = .ok (p, r) := by
  induction hp generalizing t with
  | one hv => exact moreSlots_some (ht.next? hv) (slot_complete hv hr) (moreSlots_none hnext)
  | more hv hsep hp ih =>
    obtain ⟨w, q, hw⟩ := hp.slot
    have hend := Separator.Stands.ended hsep hw
    exact moreSlots_some (ht.next? hv) (slot_complete hv hend) (ih hr hnext hsep)

/-- Says that no pattern goes on with `r`. -/
def PatternEnds (r : List Char) : Prop := Blanks r [] ∨ ∃ q, Word "else" r q

theorem PatternEnds.ended {r : List Char} (h : PatternEnds r) : Ended r := by
  rcases h with h | ⟨q, h⟩
  · exact ended_of_blanks h
  · exact h.ended

/-- A pattern ends with its text or before a letter. -/
theorem PatternEnds.ne_cons {r t : List Char} {c : Char} (h : PatternEnds r)
    (hc : isWordStart c = false) : skipBlanks r ≠ c :: t := by
  intro hs
  rcases h with h | ⟨q, h⟩
  · rw [(blanks_iff (stops_nil _)).1 h] at hs
    cases hs
  · obtain ⟨d, l, hl, hd⟩ := h.head
    rw [hl] at hs
    obtain ⟨rfl, -⟩ := List.cons.inj hs
    rw [hd] at hc
    cases hc

theorem PatternEnds.next? {r : List Char} (h : PatternEnds r) (sep : Separator) :
    sep.next? r = none := by
  cases sep with
  | comma =>
    rw [Separator.next?]
    split
    · rename_i t ht
      exact absurd ht (h.ne_cons rfl)
    · rfl
  | blanks =>
    have hname : name? (skipBlanks r) = none := by
      rcases h with h | ⟨q, h⟩
      · rw [(blanks_iff (stops_nil _)).1 h]
        rfl
      · rw [name?, word_iff.1 h]
        exact if_pos (by decide)
    simp only [Separator.next?, hname, Option.isSome_none, Bool.false_eq_true, if_false]

/-- What is read after the first slot, when it is not an arrow. -/
theorem pattern_of_moreSlots (sep : Separator) {s t r : List Char} {v : Slot} {p : Pattern}
    (hv : SlotPhrase s v t) (ht : Ended t) (harrow : ∀ u, skipBlanks t ≠ '-' :: '>' :: u)
    (hsep : sep = if (skipBlanks t).head? = some ',' then .comma else .blanks)
    (hp : moreSlots sep t = .ok (p, r)) : pattern s = .ok (v :: p, r) := by
  rw [pattern, slot_complete hv ht]
  dsimp only
  split
  · rename_i u hu
    exact absurd hu (harrow u)
  · rw [← hsep, hp]

theorem pattern_complete {p : Pattern} {s r : List Char} (h : PatternPhrase s p r)
    (hr : PatternEnds r) : pattern s = .ok (p, r) := by
  have hone : ∀ {v}, SlotPhrase s v r → pattern s = .ok ([v], r) := by
    intro v hv
    refine pattern_of_moreSlots _ hv hr.ended (fun u => hr.ne_cons rfl) rfl ?_
    exact moreSlots_none (hr.next? _)
  cases h with
  | commas hp =>
    cases hp with
    | one hv => exact hone hv
    | more hv hsep hp =>
      have ht := (mark_iff (stops_cons.2 rfl)).1 hsep
      refine pattern_of_moreSlots .comma hv (ended_of_skipBlanks ht rfl) ?_ ?_
        (moreSlots_complete .comma hr.ended (hr.next? _) hp hsep)
      · simp [ht]
      · simp [ht]
  | sideBySide hp =>
    cases hp with
    | one hv => exact hone hv
    | more hv hsep hp =>
      obtain ⟨w, q, hw⟩ := hp.slot
      obtain ⟨q, hn⟩ := hw.name
      obtain ⟨c, l, hs, hc⟩ := hn.1.head
      obtain rfl := hsep
      have hne : c ≠ '-' ∧ c ≠ ',' := ⟨ne_of_tells hc rfl, ne_of_tells hc rfl⟩
      refine pattern_of_moreSlots .blanks hv hn.1.ended ?_ ?_
        (moreSlots_complete .blanks hr.ended (hr.next? _) hp rfl)
      · simp [hs, hne.1]
      · simp [hs, hne.2]
  | arrow hv hm hw =>
    rename_i v t u w
    have ht : skipBlanks t = '-' :: '>' :: u := (mark_iff (stops_cons.2 rfl)).1 hm
    rw [pattern, slot_complete hv (ended_of_skipBlanks ht rfl)]
    simp only [ht, slot_complete hw hr.ended]

theorem Grammar.PatternPhrase.name {p : Pattern} {s r : List Char} (h : PatternPhrase s p r) :
    ∃ n q, Name n s q := by
  cases h with
  | commas hp | sideBySide hp =>
    obtain ⟨v, q, hv⟩ := hp.slot
    exact ⟨_, hv.name⟩
  | arrow hv _ _ => exact ⟨_, hv.name⟩

theorem alternative_none {r : List Char} (h : Blanks r []) : alternative r = .ok (none, r) := by
  have hno : keyword? "else" (skipBlanks r) = none := by
    rw [(blanks_iff (stops_nil _)).1 h]
    rfl
  simp only [alternative, hno]

theorem rule_complete {r : Rule} {s rest : List Char} (h : RulePhrase s r rest)
    (hrest : Blanks rest []) : rule s = .ok (r, rest) := by
  cases h with
  | simple hp =>
    obtain ⟨n, q, hw, hk⟩ := hp.name
    have hno : keyword? "if" (skipBlanks s) = none :=
      keyword?_eq_none_of_word hw fun he => hk (he ▸ by decide)
    simp only [rule, hno, pattern_complete hp (.inl hrest)]
  | conditional hif hc hthen hp =>
    obtain ⟨hr, hcond⟩ := condition_complete hc (unlinked_of_then hthen)
    simp only [rule, keyword?_eq_some_iff.2 hif, conditionalTail, hcond,
      keyword?_eq_some_iff.2 hthen, pattern_complete hp (.inl hrest), alternative_none hrest]
  | alternative hif hc hthen hp helse hq =>
    obtain ⟨hr, hcond⟩ := condition_complete hc (unlinked_of_then hthen)
    simp only [rule, keyword?_eq_some_iff.2 hif, conditionalTail, hcond,
      keyword?_eq_some_iff.2 hthen, pattern_complete hp (.inr ⟨_, helse⟩), alternative,
      keyword?_eq_some_iff.2 helse, pattern_complete hq (.inl hrest)]

theorem wholeRule_of_derives {r : Rule} {s : List Char} (h : Derives s r) :
    wholeRule s = .ok r := by
  obtain ⟨rest, hr, hrest⟩ := h
  simp only [wholeRule, rule_complete hr hrest, (blanks_iff (stops_nil _)).1 hrest, if_true]

/-- **Reading agrees with the grammar**: a text is read as a rule just if it is one, and then as
the rule that it derives. -/
theorem wholeRule_eq_ok_iff (s : List Char) (r : Rule) : wholeRule s = .ok r ↔ Derives s r := by
  constructor
  · exact derives_of_wholeRule
  · exact wholeRule_of_derives

end Lineup.RuleText
