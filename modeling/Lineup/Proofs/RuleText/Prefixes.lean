import Lineup.Proofs.RuleText.Failures
import Lineup.Proofs.RuleText.Portable
import Lineup.Proofs.RuleText.Printing

/-!
# What was read before reading gives up

A reader gives up at the first character that cannot go on what it has read. Up to blanks, all that
stands before the place is the start of a phrase of the kind that the reader looks for (`Opens`):
what has been read are phrases, which may be followed by something else (`Portable`), and for what
is still missing there is always some text (`Completable`). So a text is given up where it stops
being the start of a rule (`derives_of_wholeRule_error`).
-/

namespace Lineup.RuleText

open Text (skipBlanks Blanks Stops Remains stops_cons stops_nil)
open Grammar

variable {P Q : List Char → List Char → Prop} {s t r f : List Char}

/-! ### Phrases of several parts -/

theorem any_term_of_pinned {n : String}
    (h : Relation.Comp (Name n) (Relation.Comp (Mark "@") (Any fun s i r => Index i s r)) s r) :
    Any TermPhrase s r := by
  obtain ⟨_, hn, _, hm, i, hi⟩ := h
  exact ⟨_, .pinned hn hm hi⟩

theorem any_comparison {o : Relation}
    (h : Relation.Comp (Any TermPhrase)
      (Relation.Comp (Mark o.symbol) (Any OperandPhrase)) s r) :
    Any ComparisonPhrase s r := by
  obtain ⟨_, ⟨t, ht⟩, _, ho, v, hv⟩ := h
  exact ⟨_, .intro ht ho hv⟩

theorem any_parentheses
    (h : Relation.Comp (Mark "(")
      (Relation.Comp (Any (ConditionPhrase .disjunction)) (Mark ")")) s r) :
    Any (ConditionPhrase .primary) s r := by
  obtain ⟨_, hopen, _, ⟨c, hc⟩, hclose⟩ := h
  exact ⟨c, .parentheses hopen hc hclose⟩

theorem any_join {op : Connective}
    (h : Relation.Comp (Any (ConditionPhrase (chainTier op)))
      (Relation.Comp (Word op.word) (Any (ConditionPhrase (linkTier op)))) s r) :
    Any (ConditionPhrase (chainTier op)) s r := by
  obtain ⟨_, ⟨c, hc⟩, _, hw, d, hd⟩ := h
  exact ⟨_, hc.join hw hd⟩

theorem any_slot_of_constrained {n : String}
    (h : Relation.Comp (Name n) (Relation.Comp (Mark "(")
      (Relation.Comp (Any (ConditionPhrase .disjunction)) (Mark ")"))) s r) :
    Any SlotPhrase s r := by
  obtain ⟨_, hn, _, hopen, _, ⟨c, hc⟩, hclose⟩ := h
  exact ⟨_, .constrained hn hopen hc hclose⟩

theorem any_slot_of_pinned {n : String}
    (h : Relation.Comp (Name n) (Relation.Comp (Mark "@") (Any fun s i r => Index i s r)) s r) :
    Any SlotPhrase s r := by
  obtain ⟨_, hn, _, hm, i, hi⟩ := h
  exact ⟨_, .pinned hn hm hi⟩

theorem any_slots {sep : List Char → List Char → Prop}
    (h : Relation.Comp (Any SlotPhrase) (Relation.Comp sep (Any (SlotsPhrase sep))) s r) :
    Any (SlotsPhrase sep) s r := by
  obtain ⟨_, ⟨v, hv⟩, _, hsep, p, hp⟩ := h
  exact ⟨_, .more hv hsep hp⟩

theorem any_pattern_of_slots {sep : Separator} (h : Any (SlotsPhrase sep.Stands) s r) :
    Any PatternPhrase s r := by
  obtain ⟨p, hp⟩ := h
  cases sep with
  | comma => exact ⟨p, .commas hp⟩
  | blanks => exact ⟨p, .sideBySide hp⟩

theorem any_pattern_of_arrow
    (h : Relation.Comp (Any SlotPhrase) (Relation.Comp (Mark "->") (Any SlotPhrase)) s r) :
    Any PatternPhrase s r := by
  obtain ⟨_, ⟨v, hv⟩, _, hm, w, hw⟩ := h
  exact ⟨_, .arrow hv hm hw⟩

theorem any_conditional
    (h : Relation.Comp (Word "if") (Relation.Comp (Any (ConditionPhrase .disjunction))
      (Relation.Comp (Word "then") (Any PatternPhrase))) s r) :
    Any RulePhrase s r := by
  obtain ⟨_, hif, _, ⟨c, hc⟩, _, hthen, p, hp⟩ := h
  exact ⟨_, .conditional hif hc hthen hp⟩

theorem any_alternative
    (h : Relation.Comp (Word "if") (Relation.Comp (Any (ConditionPhrase .disjunction))
      (Relation.Comp (Word "then") (Relation.Comp (Any PatternPhrase)
        (Relation.Comp (Word "else") (Any PatternPhrase))))) s r) :
    Any RulePhrase s r := by
  obtain ⟨_, hif, _, ⟨c, hc⟩, _, hthen, _, ⟨p, hp⟩, _, helse, q, hq⟩ := h
  exact ⟨_, .alternative hif hc hthen hp helse hq⟩

/-! ### What is missing -/

/-- Says that phrases of the kind `P` can stand anywhere, even behind a word. -/
def Completable (P : List Char → List Char → Prop) : Prop :=
  ∃ w, ∀ r, Stops isWordPart r → Stops isWordPart (w ++ r) ∧ P (w ++ r) r

theorem digits_zero : Decimal.Digits ['0'] := ⟨nofun, List.forall_mem_singleton.2 rfl⟩

namespace Completable

theorem imp (h : Completable P) (himp : ∀ s r, P s r → Q s r) : Completable Q := by
  obtain ⟨w, hw⟩ := h
  exact ⟨w, fun r hr => ⟨(hw r hr).1, himp _ _ (hw r hr).2⟩⟩

theorem any_imp {P : List Char → α → List Char → Prop} {Q : List Char → β → List Char → Prop}
    (h : Completable (Any P)) (himp : ∀ {s a r}, P s a r → ∃ b, Q s b r) : Completable (Any Q) :=
  h.imp fun _ _ hp => hp.elim fun _ => himp

theorem comp (h : Completable P) (h' : Completable Q) : Completable (Relation.Comp P Q) := by
  obtain ⟨v, hv⟩ := h
  obtain ⟨w, hw⟩ := h'
  refine ⟨v ++ w, fun r hr => ?_⟩
  obtain ⟨hstop, hphrase⟩ := hw r hr
  rw [List.append_assoc]
  exact ⟨(hv _ hstop).1, _, (hv _ hstop).2, hphrase⟩

theorem mark (m : String) : Completable (Mark m) :=
  ⟨" ".toList ++ m.toList, fun r _ => by
    rw [List.append_assoc]
    exact ⟨stops_space, mark_space⟩⟩

theorem word {w : String} (h : IsWord w) : Completable (Word w) := by
  obtain ⟨l, hl⟩ := mark w
  exact ⟨l, fun r hr => ⟨(hl r hr).1, h, (hl r hr).2, hr⟩⟩

theorem index : Completable (Any fun s i r => Index i s r) :=
  (mark "0").imp fun _ _ h => ⟨0, false, ['0'], digits_zero, h, by decide⟩

theorem term : Completable (Any TermPhrase) :=
  (word (by decide : IsWord "a")).imp fun _ _ h => ⟨_, .bare ⟨h, by decide⟩⟩

theorem operand : Completable (Any OperandPhrase) := term.any_imp fun h => ⟨_, .term h⟩

theorem comparison : Completable (Any ComparisonPhrase) :=
  (term.comp ((mark (Relation.symbol .eq)).comp operand)).imp fun _ _ => any_comparison

theorem condition : Completable (Any (ConditionPhrase .disjunction)) :=
  comparison.any_imp fun h => ⟨_, .conjunction (.primary (.comparison h))⟩

theorem slot : Completable (Any SlotPhrase) :=
  (word (by decide : IsWord "a")).imp fun _ _ h => ⟨_, .bare ⟨h, by decide⟩⟩

theorem pattern : Completable (Any PatternPhrase) := slot.any_imp fun h => ⟨_, .commas (.one h)⟩

end Completable

/-! ### What has been opened -/

/-- Says that what stands in `s` before its tail `f` is, but for the blanks at its end, the start of
a phrase of the kind `P`. -/
def Opens (P : List Char → List Char → Prop) (s f : List Char) : Prop :=
  ∃ u t v, s = u ++ t ∧ Blanks t f ∧
    ∀ r, Stops isWordPart r → Keeps s (u ++ (v ++ r)) ∧ P (u ++ (v ++ r)) r

namespace Opens

theorem imp (h : Opens P s f) (himp : ∀ s r, P s r → Q s r) : Opens Q s f := by
  obtain ⟨u, t, v, hs, ht, hv⟩ := h
  exact ⟨u, t, v, hs, ht, fun r hr => ⟨(hv r hr).1, himp _ _ (hv r hr).2⟩⟩

theorem any_imp {P : List Char → α → List Char → Prop} {Q : List Char → β → List Char → Prop}
    (h : Opens (Any P) s f) (himp : ∀ {s a r}, P s a r → ∃ b, Q s b r) : Opens (Any Q) s f :=
  h.imp fun _ _ hp => hp.elim fun _ => himp

/-- Nothing has been read yet. -/
theorem start (h : Completable P) (hf : Blanks s f) : Opens P s f := by
  obtain ⟨w, hw⟩ := h
  exact ⟨[], s, w, rfl, hf, fun r hr => ⟨fun _ => (hw r hr).1, (hw r hr).2⟩⟩

/-- Nothing is missing. -/
theorem whole (h : Portable P s t) (hf : Blanks t f) : Opens P s f := by
  obtain ⟨u, rfl, hu⟩ := h
  refine ⟨u, t, [], rfl, hf, fun r hr => ?_⟩
  have hkeeps : Keeps t r := fun _ => hr
  exact ⟨keeps_append hkeeps, hu r hkeeps⟩

/-- Of a token the characters `c :: l` are there and `v` is missing. -/
theorem token {c : Char} (l v : List Char) (h : Blanks s (c :: l ++ t))
    (hphrase : ∀ s r, Blanks s (c :: l ++ (v ++ r)) → P s r) : Opens P s t := by
  obtain ⟨w, hw, rfl⟩ := h
  refine ⟨w ++ c :: l, t, v, (List.append_assoc w _ t).symm, .refl t, fun r _ => ?_⟩
  rw [List.append_assoc]
  exact ⟨keeps_append fun hc => stops_cons.2 (stops_cons.1 hc), hphrase _ _ ⟨w, hw, rfl⟩⟩

/-- A phrase has been read before. -/
theorem after (h : Portable P s t) (h' : Opens Q t f) : Opens (Relation.Comp P Q) s f := by
  obtain ⟨u, rfl, hu⟩ := h
  obtain ⟨v, q, w, rfl, hq, hw⟩ := h'
  refine ⟨u ++ v, q, w, (List.append_assoc u v q).symm, hq, fun r hr => ?_⟩
  obtain ⟨hkeeps, hphrase⟩ := hw r hr
  rw [List.append_assoc]
  exact ⟨keeps_append hkeeps, _, hu _ hkeeps, hphrase⟩

/-- A phrase is missing behind. -/
theorem before (h : Opens P s f) (h' : Completable Q) : Opens (Relation.Comp P Q) s f := by
  obtain ⟨u, t, v, hs, ht, hv⟩ := h
  obtain ⟨w, hw⟩ := h'
  refine ⟨u, t, v ++ w, hs, ht, fun r hr => ?_⟩
  obtain ⟨hstop, hphrase⟩ := hw r hr
  rw [List.append_assoc v w r]
  exact ⟨(hv _ hstop).1, _, (hv _ hstop).2, hphrase⟩

end Opens

/-- Says that if reading `s` fails, a phrase of the kind `P` has been opened before. -/
def FailsOpen (P : List Char → List Char → Prop) (s : List Char) (x : Except Failure α) : Prop :=
  ∀ f, x = .error f → Opens P s f.rest

theorem failsOpen_ok (a : α) : FailsOpen P s (.ok a) := nofun

theorem failsOpen_error {f : Failure} (h : Opens P s f.rest) :
    FailsOpen P s (.error f : Except Failure α) :=
  fun _ hf => Except.error.inj hf ▸ h

/-! ### Comparisons -/

/-- Behind a minus sign only digits are missing. -/
theorem opens_index_of_minus (h : skipBlanks s = '-' :: t) :
    Opens (Any fun s i r => Index i s r) s t :=
  .token [] ['0'] (mark_of_skipBlanks h) fun _ _ hb =>
    ⟨0, true, ['0'], digits_zero, hb, by decide⟩

theorem failsOpen_index (s : List Char) :
    FailsOpen (Any fun s i r => Index i s r) s (index (skipBlanks s)) := by
  simp only [index]
  split
  · refine failsOpen_error ?_
    rw [splitMinus.eq_def]
    split
    · rename_i t ht
      exact opens_index_of_minus ht
    · exact .start .index (.skip s)
  split
  · exact failsOpen_ok _
  · exact failsOpen_error (.start .index (.skip s))

theorem failsOpen_position? (s : List Char) :
    FailsOpen (Relation.Comp (Mark "@") (Any fun s i r => Index i s r)) s (position? s) := by
  rw [position?]
  split
  · rename_i t ht
    split
    · exact failsOpen_ok _
    · rename_i f hf
      exact failsOpen_error (.after (.mark (mark_of_skipBlanks ht)) (failsOpen_index t f hf))
  · exact failsOpen_ok _

theorem failsOpen_term (e : Expectation) (s : List Char) :
    FailsOpen (Any TermPhrase) s (term e (skipBlanks s)) := by
  rw [term]
  split
  · exact failsOpen_error (.start .term (.skip s))
  rename_i n t hn
  have hname := Portable.name (name?_eq_some_iff.1 hn)
  split
  · exact failsOpen_ok _
  · rename_i f hf
    have hposition := Opens.after hname (failsOpen_position? t f hf)
    exact failsOpen_error (hposition.imp fun _ _ => any_term_of_pinned)

/-- In an open string only its closing quote is missing. -/
theorem failsOpen_stringTail (h : skipBlanks s = '"' :: t) :
    FailsOpen (Any fun s v r => Quotation v s r) s (stringTail t) := by
  obtain ⟨ht, hall, -⟩ := Text.takeWhile_spec isStringPart t
  have hb := mark_of_skipBlanks h
  rw [ht] at hb
  rw [stringTail]
  split
  · exact failsOpen_ok _
  · refine failsOpen_error (.token (t.takeWhile isStringPart) ['"'] hb fun s r hclosed => ?_)
    rw [List.cons_append] at hclosed
    refine ⟨String.ofList (t.takeWhile isStringPart), ?_, ?_⟩
    · rwa [String.toList_ofList]
    · rwa [String.toList_ofList]

theorem failsOpen_operand (s : List Char) :
    FailsOpen (Any OperandPhrase) s (operand (skipBlanks s)) := by
  rw [operand.eq_def]
  split
  · rename_i t ht
    split
    · exact failsOpen_ok _
    · rename_i f hf
      exact failsOpen_error ((failsOpen_stringTail ht f hf).any_imp fun h => ⟨_, .string h⟩)
  split
  · exact failsOpen_ok _
  split
  · exact failsOpen_ok _
  split
  · exact failsOpen_ok _
  · rename_i f hf
    exact failsOpen_error ((failsOpen_term .value s f hf).any_imp fun h => ⟨_, .term h⟩)

theorem failsOpen_comparison (s : List Char) :
    FailsOpen (Any ComparisonPhrase) s (comparison (skipBlanks s)) := by
  have hrest := (Completable.mark (Relation.symbol .eq)).comp Completable.operand
  rw [comparison]
  split
  · rename_i f hf
    have hopens := (failsOpen_term .condition s f hf).before hrest
    exact failsOpen_error (hopens.imp fun _ _ => any_comparison)
  rename_i v t ht
  have hterm : Portable (Any TermPhrase) s t := .any (.term (termPhrase_of_term ht))
  split
  · have hopens := Opens.after hterm (.start hrest (.skip t))
    exact failsOpen_error (hopens.imp fun _ _ => any_comparison)
  rename_i o u ho
  have hrelation := Portable.mark (relation?_sound ho)
  split
  · exact failsOpen_ok _
  · rename_i f hf
    have hopens := Opens.after hterm (.after hrelation (failsOpen_operand u f hf))
    exact failsOpen_error (hopens.imp fun _ _ => any_comparison)

/-! ### Conditions -/

/-- By the length of the text, on which the links are read. -/
theorem failsOpen_moreLinks {op : Connective} {s₀ : List Char} {left : Condition}
    (hleft : ConditionPhrase (chainTier op) s₀ left s)
    (hlink : ∀ t, t.length < s.length →
      FailsOpen (Any (ConditionPhrase (linkTier op))) t (link op t)) :
    FailsOpen (Any (ConditionPhrase (chainTier op))) s₀ (moreLinks op left s) := by
  induction hn : s.length using Nat.strong_induction_on generalizing s left with
  | _ n ih =>
    subst hn
    rw [moreLinks]
    split
    · exact failsOpen_ok _
    rename_i t hk
    have ht : Remains t s := (remains_keyword? hk).skipBlanks
    have hword := keyword?_eq_some_iff.1 hk
    dsimp only
    split
    · rename_i f hf
      have hchain : Portable (Any (ConditionPhrase (chainTier op))) s₀ s := .any (.condition hleft)
      have hopens := Opens.after hchain (.after (.word hword) (hlink t ht.2 f hf))
      exact failsOpen_error (hopens.imp fun _ _ => any_join)
    rename_i c q hc
    have hlt : q.1.length < s.length := q.2.2.trans ht.2
    have hjoin := hleft.join hword (conditionPhrase_of_link ⟨q.2, hc⟩)
    split
    · rename_i f hf
      exact failsOpen_error
        (ih q.1.length hlt hjoin (fun u hu => hlink u (hu.trans hlt)) rfl f hf)
    · exact failsOpen_ok _

theorem failsOpen_chain {op : Connective}
    (hlink : ∀ t, t.length ≤ s.length →
      FailsOpen (Any (ConditionPhrase (linkTier op))) t (link op t)) :
    FailsOpen (Any (ConditionPhrase (chainTier op))) s (chain op s) := by
  rw [chain]
  split
  · rename_i f hf
    exact failsOpen_error ((hlink s le_rfl f hf).any_imp fun h => ⟨_, h.link⟩)
  rename_i c q hc
  have hfirst := conditionPhrase_of_link ⟨q.2, hc⟩
  split
  · rename_i f hf
    exact failsOpen_error
      (failsOpen_moreLinks hfirst.link (fun t ht => hlink t (ht.trans q.2.2).le) f hf)
  · exact failsOpen_ok _

/-- Behind a condition in parentheses only the closing one is missing. -/
theorem opens_closing {c : Condition} {q : Text.Rest s} (h : condition s = .ok (c, q)) :
    Opens (Relation.Comp (Any (ConditionPhrase .disjunction)) (Mark ")")) s (skipBlanks q.1) :=
  .after (.any (.condition (conditionPhrase_of_condition ⟨q.2, h⟩)))
    (.start (.mark ")") (.skip q.1))

theorem failsOpen_primary
    (hcondition : ∀ t, t.length < s.length →
      FailsOpen (Any (ConditionPhrase .disjunction)) t (condition t)) :
    FailsOpen (Any (ConditionPhrase .primary)) s (primary s) := by
  rw [primary]
  split
  · rename_i t ht
    have hopen : Portable (Mark "(") s t := .mark (mark_of_skipBlanks ht)
    dsimp only
    split
    · rename_i f hf
      have hinner := hcondition t (Text.remains_of_skipBlanks ht).2 f hf
      have hopens := Opens.after hopen (hinner.before (.mark ")"))
      exact failsOpen_error (hopens.imp fun _ _ => any_parentheses)
    rename_i c q hc
    split
    · exact failsOpen_ok _
    · have hopens := Opens.after hopen (opens_closing hc)
      exact failsOpen_error (hopens.imp fun _ _ => any_parentheses)
  · split
    · rename_i f hf
      exact failsOpen_error ((failsOpen_comparison s f hf).any_imp fun h => ⟨_, .comparison h⟩)
    · exact failsOpen_ok _

theorem failsOpen_condition (s : List Char) :
    FailsOpen (Any (ConditionPhrase .disjunction)) s (condition s) := by
  induction hn : s.length using Nat.strong_induction_on generalizing s with
  | _ n ih =>
    subst hn
    have hprimary : ∀ t, t.length ≤ s.length →
        FailsOpen (Any (ConditionPhrase .primary)) t (link .and t) := by
      intro t ht
      rw [link]
      exact failsOpen_primary fun u hu => ih u.length (hu.trans_le ht) u rfl
    refine failsOpen_chain fun t ht => ?_
    rw [link]
    exact failsOpen_chain fun u hu => hprimary u (hu.trans ht)

/-! ### Patterns and rules -/

theorem failsOpen_slotTail {name : String} {s₀ : List Char} (hn : Name name s₀ s) :
    FailsOpen (Any SlotPhrase) s₀ (slotTail name s) := by
  have hname := Portable.name hn
  rw [slotTail]
  split
  · rename_i t ht
    have hopen : Portable (Mark "(") s t := .mark (mark_of_skipBlanks ht)
    split
    · rename_i f hf
      have hinner := (failsOpen_condition t f hf).before (.mark ")")
      have hopens := Opens.after hname (.after hopen hinner)
      exact failsOpen_error (hopens.imp fun _ _ => any_slot_of_constrained)
    rename_i c q hc
    split
    · exact failsOpen_ok _
    · have hopens := Opens.after hname (.after hopen (opens_closing hc))
      exact failsOpen_error (hopens.imp fun _ _ => any_slot_of_constrained)
  · split
    · rename_i f hf
      have hopens := Opens.after hname (failsOpen_position? s f hf)
      exact failsOpen_error (hopens.imp fun _ _ => any_slot_of_pinned)
    · exact failsOpen_ok _

theorem failsOpen_slot (e : Expectation) (s : List Char) :
    FailsOpen (Any SlotPhrase) s (slot e (skipBlanks s)) := by
  rw [slot]
  split
  · exact failsOpen_error (.start .slot (.skip s))
  · rename_i n t hn
    exact failsOpen_slotTail (name?_eq_some_iff.1 hn)

theorem Separator.Stands.portable {sep : Separator} (h : sep.Stands s t) :
    Portable sep.Stands s t := by
  cases sep with
  | comma => exact .mark h
  | blanks => exact h ▸ .eq s

theorem failsOpen_moreSlots (sep : Separator) (s : List Char) :
    FailsOpen (Relation.Comp sep.Stands (Any (SlotsPhrase sep.Stands))) s (moreSlots sep s) := by
  induction hn : s.length using Nat.strong_induction_on generalizing s with
  | _ n ih =>
    subst hn
    rw [moreSlots]
    split
    · exact failsOpen_ok _
    rename_i t ht
    obtain ⟨u, hsep, rfl⟩ := Separator.stands_of_next? ht
    split
    · rename_i f hf
      have hfirst : Opens (Any (SlotsPhrase sep.Stands)) u f.rest :=
        (failsOpen_slot .element u f hf).any_imp fun h => ⟨_, .one h⟩
      exact failsOpen_error (.after hsep.portable hfirst)
    rename_i v q hv
    have hlt : q.length < s.length := ((remains_slot hv).after (Separator.next?_suffix ht)).2
    have hslot : Portable (Any SlotPhrase) u q := .any (.slot (slotPhrase_of_slot hv))
    dsimp only
    split
    · rename_i f hf
      have hmore := Opens.after hslot (ih q.length hlt q rfl f hf)
      exact failsOpen_error (.after hsep.portable (hmore.imp fun _ _ => any_slots))
    · exact failsOpen_ok _

theorem failsOpen_pattern (s : List Char) : FailsOpen (Any PatternPhrase) s (pattern s) := by
  rw [pattern]
  split
  · rename_i f hf
    exact failsOpen_error
      ((failsOpen_slot .sequence s f hf).any_imp fun h => ⟨_, .commas (.one h)⟩)
  rename_i v t hv
  have hslot : Portable (Any SlotPhrase) s t := .any (.slot (slotPhrase_of_slot hv))
  split
  · rename_i u hu
    have harrow : Mark "->" t u := (hu ▸ Blanks.skip t : Blanks t ('-' :: '>' :: u))
    split
    · rename_i f hf
      have hopens := Opens.after hslot (.after (.mark harrow) (failsOpen_slot .element u f hf))
      exact failsOpen_error (hopens.imp fun _ _ => any_pattern_of_arrow)
    · exact failsOpen_ok _
  · dsimp only
    split
    · rename_i f hf
      have hopens := Opens.after hslot (failsOpen_moreSlots _ t f hf)
      exact failsOpen_error (hopens.imp fun _ _ h => any_pattern_of_slots (any_slots h))
    · exact failsOpen_ok _

theorem failsOpen_alternative (s : List Char) :
    FailsOpen (Relation.Comp (Word "else") (Any PatternPhrase)) s (alternative s) := by
  rw [alternative]
  split
  · exact failsOpen_ok _
  rename_i t ht
  split
  · rename_i f hf
    exact failsOpen_error (.after (.word (keyword?_eq_some_iff.1 ht)) (failsOpen_pattern t f hf))
  · exact failsOpen_ok _

theorem failsOpen_conditionalTail {s₀ : List Char} (h : Word "if" s₀ s) :
    FailsOpen (Any RulePhrase) s₀ (conditionalTail s) := by
  have hif := Portable.word h
  have hrest := (Completable.word (by decide : IsWord "then")).comp Completable.pattern
  rw [conditionalTail]
  split
  · rename_i f hf
    have hopens := Opens.after hif ((failsOpen_condition s f hf).before hrest)
    exact failsOpen_error (hopens.imp fun _ _ => any_conditional)
  rename_i c q hc
  have hcondition : Portable (Any (ConditionPhrase .disjunction)) s q.1 :=
    .any (.condition (conditionPhrase_of_condition ⟨q.2, hc⟩))
  split
  · have hopens := Opens.after hif (.after hcondition (.start hrest (.skip q.1)))
    exact failsOpen_error (hopens.imp fun _ _ => any_conditional)
  rename_i t ht
  have hthen := Portable.word (keyword?_eq_some_iff.1 ht)
  split
  · rename_i f hf
    have hbranch := Opens.after hthen (failsOpen_pattern t f hf)
    have hopens := Opens.after hif (.after hcondition hbranch)
    exact failsOpen_error (hopens.imp fun _ _ => any_conditional)
  rename_i p u hp
  have hpattern : Portable (Any PatternPhrase) t u := .any (.pattern (patternPhrase_of_pattern hp))
  split
  · rename_i f hf
    have hbranches := Opens.after hthen (.after hpattern (failsOpen_alternative u f hf))
    have hopens := Opens.after hif (.after hcondition hbranches)
    exact failsOpen_error (hopens.imp fun _ _ => any_alternative)
  · exact failsOpen_ok _

theorem failsOpen_rule (s : List Char) : FailsOpen (Any RulePhrase) s (rule s) := by
  rw [rule]
  split
  · rename_i t ht
    exact failsOpen_conditionalTail (keyword?_eq_some_iff.1 ht)
  · split
    · rename_i f hf
      exact failsOpen_error ((failsOpen_pattern s f hf).any_imp fun h => ⟨_, .simple h⟩)
    · exact failsOpen_ok _

theorem failsOpen_wholeRule (s : List Char) : FailsOpen (Any RulePhrase) s (wholeRule s) := by
  rw [wholeRule]
  split
  · rename_i f hf
    exact failsOpen_error (failsOpen_rule s f hf)
  rename_i v rest hv
  split
  · exact failsOpen_ok _
  · have hrule : Portable (Any RulePhrase) s rest := .any (.rule (rulePhrase_of_rule hv))
    exact failsOpen_error (.whole hrule (.skip rest))

/-- What stands before the place where a text is given up, but for the blanks at its end, is the
start of a rule. -/
theorem derives_of_wholeRule_error {f : Failure} (h : wholeRule s = .error f) :
    ∃ u t v r, s = u ++ t ∧ Blanks t f.rest ∧ Derives (u ++ v) r := by
  obtain ⟨u, t, v, hs, ht, hv⟩ := failsOpen_wholeRule s f h
  obtain ⟨-, r, hr⟩ := hv [] (stops_nil _)
  rw [List.append_nil] at hr
  exact ⟨u, t, v, r, hs, ht, [], hr, .refl []⟩

end Lineup.RuleText
