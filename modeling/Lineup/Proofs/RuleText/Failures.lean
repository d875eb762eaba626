import Lineup.Proofs.RuleText.Acceptance
import Lineup.Proofs.RuleText.Characters

/-!
# Where reading gives up

However a reader gets to a tail of a text, the text has the same first fault of characters as that
tail (`Reaches`), since what was read before it are whole tokens. It fails at such a tail too,
unless it comes upon an open string, and then the text has a fault of characters
(`Failure.Within`). So in a text without such a fault every string that is opened is closed.
-/

namespace Lineup.RuleText

open Text (skipBlanks skipBlanks_suffix Blanks Remains)
open Grammar

/-- Says that `r` is a tail of `s` and has the same first fault of characters. -/
structure Reaches (s r : List Char) : Prop where
  suffix : r <:+ s
  charFault? : charFault? s = charFault? r

/-- Says that `f` is at a tail that `s` reaches, or at an open string if `s` has a fault of
characters. -/
structure Failure.Within (f : Failure) (s : List Char) : Prop where
  reaches : f.trouble ≠ .openString → Reaches s f.rest
  openString : f.trouble = .openString → charFault? s ≠ none

/-- Says that reading `s` succeeds or fails within `s`. -/
def FailsWithin (s : List Char) (x : Except Failure α) : Prop := ∀ f, x = .error f → f.Within s

variable {s t r : List Char}

namespace Reaches

theorem refl (s : List Char) : Reaches s s := ⟨List.suffix_refl s, rfl⟩

theorem trans (h : Reaches s t) (h' : Reaches t r) : Reaches s r :=
  ⟨h'.suffix.trans h.suffix, h.charFault?.trans h'.charFault?⟩

theorem skipBlanks (s : List Char) : Reaches s (skipBlanks s) :=
  ⟨skipBlanks_suffix s, tokenwise_charFault?.blanks (.skip s)⟩

theorem within (h : Reaches s t) {f : Failure} (hf : f.Within t) : f.Within s :=
  ⟨fun hne => h.trans (hf.reaches hne), h.charFault? ▸ hf.openString⟩

theorem fails (h : Reaches s t) {x : Except Failure α} (hx : FailsWithin t x) : FailsWithin s x :=
  fun f hf => h.within (hx f hf)

end Reaches

theorem failsWithin_ok (a : α) : FailsWithin s (.ok a) := nofun

theorem failsWithin_error {f : Failure} (h : f.Within s) :
    FailsWithin s (.error f : Except Failure α) :=
  fun _ hf => Except.error.inj hf ▸ h

theorem failsWithin_expected {e : Expectation} (h : Reaches s r) :
    FailsWithin s (.error ⟨r, .expected e⟩ : Except Failure α) :=
  failsWithin_error ⟨fun _ => h, nofun⟩

/-! ### Tokens -/

theorem reaches_of_plain {c : Char} (h : skipBlanks s = c :: t) (hc : isPlain c) : Reaches s t := by
  refine (Reaches.skipBlanks s).trans ?_
  rw [h]
  exact ⟨List.suffix_cons c t, tokenwise_charFault?.plain hc⟩

theorem reaches_of_arrow (h : skipBlanks s = '-' :: '>' :: t) : Reaches s t := by
  refine (Reaches.skipBlanks s).trans ?_
  rw [h]
  exact ⟨(List.suffix_cons _ t).trans (List.suffix_cons _ _), tokenwise_charFault?.arrow⟩

theorem reaches_of_keyword? {w : String} (h : keyword? w (skipBlanks s) = some t) : Reaches s t :=
  ⟨(remains_keyword? h).skipBlanks.1, tokenwise_charFault?.word (keyword?_eq_some_iff.1 h)⟩

theorem reaches_of_name? {n : String} (h : name? (skipBlanks s) = some (n, t)) : Reaches s t :=
  ⟨(remains_name? h).skipBlanks.1, tokenwise_charFault?.word (name?_eq_some_iff.1 h).1⟩

theorem reaches_of_relation? {o : Relation} (h : relation? (skipBlanks s) = some (o, t)) :
    Reaches s t :=
  ⟨(remains_relation? h).skipBlanks.1, tokenwise_charFault?.relation (relation?_sound h)⟩

theorem reaches_splitMinus (s : List Char) : Reaches s (splitMinus s).2 := by
  rw [splitMinus.eq_def]
  split
  · rename_i t
    exact ⟨List.suffix_cons '-' t, charFault?_cons (by decide)⟩
  · exact .refl s

theorem failsWithin_index (s : List Char) : FailsWithin s (index s) := by
  simp only [index]
  split
  · exact failsWithin_expected (reaches_splitMinus s)
  split
  · exact failsWithin_ok _
  · exact failsWithin_expected (.refl s)

theorem failsWithin_position? (s : List Char) : FailsWithin s (position? s) := by
  rw [position?]
  split
  · rename_i t ht
    have hreach := (reaches_of_plain ht (by decide)).trans (.skipBlanks t)
    split
    · exact failsWithin_ok _
    · rename_i f hf
      exact failsWithin_error (hreach.within (failsWithin_index _ f hf))
  · exact failsWithin_ok _

/-! ### Comparisons -/

theorem reaches_of_term {e : Expectation} {v : Term} (h : term e (skipBlanks s) = .ok (v, t)) :
    Reaches s t :=
  ⟨(remains_term h).skipBlanks.1, tokenwise_charFault?.term (termPhrase_of_term h)⟩

theorem failsWithin_term (e : Expectation) (s : List Char) :
    FailsWithin s (term e (skipBlanks s)) := by
  rw [term]
  split
  · exact failsWithin_expected (.skipBlanks s)
  rename_i n t hn
  split
  · exact failsWithin_ok _
  · rename_i f hf
    exact failsWithin_error ((reaches_of_name? hn).within (failsWithin_position? t f hf))

/-- A string that is not closed is a fault of characters. -/
theorem failsWithin_stringTail (s : List Char) : FailsWithin ('"' :: s) (stringTail s) := by
  rcases unclosed_or_closed s with hopen | ⟨v, r, rfl, hv⟩
  · rw [stringTail]
    split
    · exact failsWithin_ok _
    · refine failsWithin_error ⟨absurd rfl, fun _ => ?_⟩
      rw [charFault?_unclosed hopen]
      exact Option.some_ne_none _
  · have hv : ∀ c ∈ (String.ofList v).toList, isStringPart c := by rwa [String.toList_ofList]
    have hs : v ++ '"' :: r = (String.ofList v).toList ++ '"' :: r := by rw [String.toList_ofList]
    rw [stringTail_eq_ok_iff.2 ⟨hv, hs⟩]
    exact failsWithin_ok _

theorem failsWithin_operand (s : List Char) : FailsWithin s (operand (skipBlanks s)) := by
  rw [operand.eq_def]
  split
  · rename_i t ht
    have hreach := Reaches.skipBlanks s
    rw [ht] at hreach
    split
    · exact failsWithin_ok _
    · rename_i f hf
      exact failsWithin_error (hreach.within (failsWithin_stringTail t f hf))
  split
  · exact failsWithin_ok _
  split
  · exact failsWithin_ok _
  split
  · exact failsWithin_ok _
  · rename_i f hf
    exact failsWithin_error (failsWithin_term .value s f hf)

theorem failsWithin_comparison (s : List Char) : FailsWithin s (comparison (skipBlanks s)) := by
  rw [comparison]
  split
  · rename_i f hf
    exact failsWithin_error (failsWithin_term .condition s f hf)
  rename_i v t ht
  have hreach := reaches_of_term ht
  split
  · exact failsWithin_expected (hreach.trans (.skipBlanks t))
  rename_i o u ho
  have hreach := hreach.trans (reaches_of_relation? ho)
  split
  · exact failsWithin_ok _
  · rename_i f hf
    exact failsWithin_error (hreach.within (failsWithin_operand u f hf))

/-! ### Conditions -/

theorem conditionPhrase_of_link {op : Connective} {c : Condition} (h : Answers (link op s) c r) :
    ConditionPhrase (linkTier op) s c r := by
  have hprimary : ∀ s c r, Answers (primary s) c r → ConditionPhrase .primary s c r := fun s c r =>
    conditionPhrase_of_primary fun _ _ _ _ => conditionPhrase_of_condition
  cases op with
  | and => exact hprimary s c r (answers_link_and.1 h)
  | or =>
    refine conditionPhrase_of_chain (fun t c r _ hc => ?_) (answers_link_or.1 h)
    exact hprimary t c r (answers_link_and.1 hc)

theorem reaches_of_link {op : Connective} {c : Condition} (h : Answers (link op s) c r) :
    Reaches s r :=
  ⟨h.property.1, tokenwise_charFault?.condition (conditionPhrase_of_link h)⟩

theorem reaches_of_condition {c : Condition} (h : Answers (condition s) c r) : Reaches s r :=
  ⟨h.property.1, tokenwise_charFault?.condition (conditionPhrase_of_condition h)⟩

/-- By the length of the text, on which the links are read. -/
theorem failsWithin_moreLinks {op : Connective} (left : Condition)
    (hlink : ∀ t, t.length < s.length → FailsWithin t (link op t)) :
    FailsWithin s (moreLinks op left s) := by
  induction hn : s.length using Nat.strong_induction_on generalizing s left with
  | _ n ih =>
    subst hn
    rw [moreLinks]
    split
    · exact failsWithin_ok _
    rename_i t hk
    have ht : Remains t s := (remains_keyword? hk).skipBlanks
    have hreach := reaches_of_keyword? hk
    dsimp only
    split
    · rename_i f hf
      exact failsWithin_error (hreach.within (hlink t ht.2 f hf))
    rename_i c q hc
    have hq : Reaches t q.1 := reaches_of_link ⟨q.2, hc⟩
    have hlt : q.1.length < s.length := q.2.2.trans ht.2
    split
    · rename_i f hf
      have hmore := ih q.1.length hlt (.join op left c) (fun u hu => hlink u (hu.trans hlt)) rfl
      exact failsWithin_error ((hreach.trans hq).within (hmore f hf))
    · exact failsWithin_ok _

theorem failsWithin_chain {op : Connective}
    (hlink : ∀ t, t.length ≤ s.length → FailsWithin t (link op t)) :
    FailsWithin s (chain op s) := by
  rw [chain]
  split
  · rename_i f hf
    exact failsWithin_error (hlink s le_rfl f hf)
  rename_i c q hc
  have hq : Reaches s q.1 := reaches_of_link ⟨q.2, hc⟩
  split
  · rename_i f hf
    have hmore := failsWithin_moreLinks c fun t ht => hlink t (ht.trans q.2.2).le
    exact failsWithin_error (hq.within (hmore f hf))
  · exact failsWithin_ok _

theorem failsWithin_primary
    (hcondition : ∀ t, t.length < s.length → FailsWithin t (condition t)) :
    FailsWithin s (primary s) := by
  rw [primary]
  split
  · rename_i t ht
    have hreach := reaches_of_plain ht (by decide)
    dsimp only
    split
    · rename_i f hf
      have hlt := (Text.remains_of_skipBlanks ht).2
      exact failsWithin_error (hreach.within (hcondition t hlt f hf))
    rename_i c q hc
    have hq : Reaches t q.1 := reaches_of_condition ⟨q.2, hc⟩
    split
    · exact failsWithin_ok _
    · exact failsWithin_expected ((hreach.trans hq).trans (.skipBlanks q.1))
  · split
    · rename_i f hf
      exact failsWithin_error (failsWithin_comparison s f hf)
    · exact failsWithin_ok _

theorem failsWithin_condition (s : List Char) : FailsWithin s (condition s) := by
  induction hn : s.length using Nat.strong_induction_on generalizing s with
  | _ n ih =>
    subst hn
    have hprimary : ∀ t, t.length ≤ s.length → FailsWithin t (link .and t) := by
      intro t ht
      rw [link]
      exact failsWithin_primary fun u hu => ih u.length (hu.trans_le ht) u rfl
    refine failsWithin_chain fun t ht => ?_
    rw [link]
    exact failsWithin_chain fun u hu => hprimary u (hu.trans ht)

/-! ### Patterns and rules -/

/-- Says that reading `s` leaves a tail that it reaches, or fails within `s`. -/
structure ReadsWithin (s : List Char) (x : Reading α) : Prop where
  fails : FailsWithin s x
  reaches : ∀ a r, x = .ok (a, r) → Reaches s r

theorem readsWithin_ok {a : α} (h : Reaches s r) : ReadsWithin s (.ok (a, r)) :=
  ⟨failsWithin_ok _, fun _ _ he => (Prod.mk.inj (Except.ok.inj he)).2 ▸ h⟩

theorem readsWithin_error {f : Failure} (h : f.Within s) :
    ReadsWithin s (.error f : Reading α) :=
  ⟨failsWithin_error h, nofun⟩

theorem ReadsWithin.of_reaches {x : Reading α} (hx : ReadsWithin t x) (h : Reaches s t) :
    ReadsWithin s x :=
  ⟨h.fails hx.fails, fun a r hr => h.trans (hx.reaches a r hr)⟩

theorem failsWithin_slotTail (name : String) (s : List Char) : FailsWithin s (slotTail name s) := by
  rw [slotTail]
  split
  · rename_i t ht
    have hreach := reaches_of_plain ht (by decide)
    split
    · rename_i f hf
      exact failsWithin_error (hreach.within (failsWithin_condition t f hf))
    rename_i c q hc
    have hq : Reaches t q.1 := reaches_of_condition ⟨q.2, hc⟩
    split
    · exact failsWithin_ok _
    · exact failsWithin_expected ((hreach.trans hq).trans (.skipBlanks q.1))
  · split
    · rename_i f hf
      exact failsWithin_error (failsWithin_position? s f hf)
    · exact failsWithin_ok _

theorem readsWithin_slot (e : Expectation) (s : List Char) :
    ReadsWithin s (slot e (skipBlanks s)) := by
  constructor
  · rw [slot]
    split
    · exact failsWithin_expected (.skipBlanks s)
    · rename_i n t hn
      exact (reaches_of_name? hn).fails (failsWithin_slotTail n t)
  · intro v r h
    exact ⟨(remains_slot h).skipBlanks.1, tokenwise_charFault?.slot (slotPhrase_of_slot h)⟩

theorem Separator.reaches_of_next? {sep : Separator} (h : sep.next? s = some t) :
    ∃ u, Reaches s u ∧ t = skipBlanks u := by
  cases sep with
  | comma =>
    simp only [next?] at h
    split at h
    · rename_i u hu
      exact ⟨u, reaches_of_plain hu (by decide), (Option.some.inj h).symm⟩
    · cases h
  | blanks =>
    simp only [next?] at h
    split at h
    · exact ⟨s, .refl s, (Option.some.inj h).symm⟩
    · cases h

theorem readsWithin_moreSlots (sep : Separator) (s : List Char) :
    ReadsWithin s (moreSlots sep s) := by
  induction hn : s.length using Nat.strong_induction_on generalizing s with
  | _ n ih =>
    subst hn
    rw [moreSlots]
    split
    · exact readsWithin_ok (.refl s)
    rename_i t ht
    obtain ⟨u, hu, rfl⟩ := Separator.reaches_of_next? ht
    have hslot := (readsWithin_slot .element u).of_reaches hu
    split
    · rename_i f hf
      exact readsWithin_error (hslot.fails f hf)
    rename_i v q hv
    have hlt : q.length < s.length := ((remains_slot hv).after (Separator.next?_suffix ht)).2
    have hmore := (ih q.length hlt q rfl).of_reaches (hslot.reaches v q hv)
    dsimp only
    split
    · rename_i f hf
      exact readsWithin_error (hmore.fails f hf)
    · rename_i p r hp
      exact readsWithin_ok (hmore.reaches p r hp)

theorem readsWithin_pattern (s : List Char) : ReadsWithin s (pattern s) := by
  have hfirst := readsWithin_slot .sequence s
  rw [pattern]
  split
  · rename_i f hf
    exact readsWithin_error (hfirst.fails f hf)
  rename_i v t hv
  have ht := hfirst.reaches v t hv
  split
  · rename_i u hu
    have hsecond := (readsWithin_slot .element u).of_reaches (ht.trans (reaches_of_arrow hu))
    split
    · rename_i f hf
      exact readsWithin_error (hsecond.fails f hf)
    · rename_i w r hw
      exact readsWithin_ok (hsecond.reaches w r hw)
  · have hmore := fun sep => (readsWithin_moreSlots sep t).of_reaches ht
    dsimp only
    split
    · rename_i f hf
      exact readsWithin_error ((hmore _).fails f hf)
    · rename_i p r hp
      exact readsWithin_ok ((hmore _).reaches p r hp)

theorem readsWithin_alternative (s : List Char) : ReadsWithin s (alternative s) := by
  rw [alternative]
  split
  · exact readsWithin_ok (.refl s)
  rename_i t ht
  have hpattern := (readsWithin_pattern t).of_reaches (reaches_of_keyword? ht)
  split
  · rename_i f hf
    exact readsWithin_error (hpattern.fails f hf)
  · rename_i p r hp
    exact readsWithin_ok (hpattern.reaches p r hp)

theorem readsWithin_conditionalTail (s : List Char) : ReadsWithin s (conditionalTail s) := by
  rw [conditionalTail]
  split
  · rename_i f hf
    exact readsWithin_error (failsWithin_condition s f hf)
  rename_i c q hc
  have hq : Reaches s q.1 := reaches_of_condition ⟨q.2, hc⟩
  split
  · exact ⟨failsWithin_expected (hq.trans (.skipBlanks q.1)), nofun⟩
  rename_i t ht
  have hpattern := (readsWithin_pattern t).of_reaches (hq.trans (reaches_of_keyword? ht))
  split
  · rename_i f hf
    exact readsWithin_error (hpattern.fails f hf)
  rename_i p u hp
  have halternative := (readsWithin_alternative u).of_reaches (hpattern.reaches p u hp)
  split
  · rename_i f hf
    exact readsWithin_error (halternative.fails f hf)
  · rename_i p' r hp'
    exact readsWithin_ok (halternative.reaches p' r hp')

theorem readsWithin_rule (s : List Char) : ReadsWithin s (rule s) := by
  rw [rule]
  split
  · rename_i t ht
    exact (readsWithin_conditionalTail t).of_reaches (reaches_of_keyword? ht)
  · split
    · rename_i f hf
      exact readsWithin_error ((readsWithin_pattern s).fails f hf)
    · rename_i p r hp
      exact readsWithin_ok ((readsWithin_pattern s).reaches p r hp)

/-- A text that is no rule is given up at a tail that it reaches, or at an open string if it has a
fault of characters. -/
theorem failsWithin_wholeRule (s : List Char) : FailsWithin s (wholeRule s) := by
  rw [wholeRule]
  split
  · rename_i f hf
    exact failsWithin_error ((readsWithin_rule s).fails f hf)
  rename_i v rest hv
  split
  · exact failsWithin_ok _
  · have hrest := (readsWithin_rule s).reaches v rest hv
    have hclosed : Trouble.unexpected ≠ .openString := by decide
    exact failsWithin_error ⟨fun _ => hrest.trans (.skipBlanks rest), fun he => absurd he hclosed⟩

theorem openString_ne_of_wholeRule {f : Failure} (hs : charFault? s = none)
    (hf : wholeRule s = .error f) : f.trouble ≠ .openString :=
  fun hopen => (failsWithin_wholeRule s f hf).openString hopen hs

theorem reaches_of_wholeRule {f : Failure} (hs : charFault? s = none)
    (hf : wholeRule s = .error f) : Reaches s f.rest :=
  (failsWithin_wholeRule s f hf).reaches (openString_ne_of_wholeRule hs hf)

/-! ### Agreement -/

/-- **Characters and grammar agree**: a text that is a rule has no fault of characters, and reading
a text without one does not come upon an open string. The fault that is found is the first one in
the text, be the text before it a rule or not. -/
theorem charFault?_agrees (s : List Char) :
    ((∃ r, wholeRule s = .ok r) → charFault? s = none) ∧
      (charFault? s = none → ∀ rest, wholeRule s ≠ .error ⟨rest, .openString⟩) ∧
      (charFault? s ≠ none ↔ ∃ rest f, Outside s rest ∧ StartsFaulty rest f) ∧
      ∀ rest f, charFault? s = some (f, rest) ↔ FirstFault s rest f := by
  refine ⟨?_, ?_, ?_, fun rest f => charFault?_eq_some_iff⟩
  · rintro ⟨r, hr⟩
    exact charFault?_of_derives (derives_of_wholeRule hr)
  · intro hs rest hf
    exact openString_ne_of_wholeRule hs hf rfl
  · rw [Ne, charFault?_eq_none_iff]
    simp only [not_forall, not_not, exists_prop]

/-- The first fault stands behind what no rule starts with and behind a string, and before a quote
that is not closed. -/
theorem charFault?_agrees_hash :
    charFault? ") \"#\" # \"".toList = some (.unrecognized '#', "# \"".toList) ∧
      FirstFault ") \"#\" # \"".toList "# \"".toList (.unrecognized '#') := by
  have hfault : charFault? ") \"#\" # \"".toList = some (.unrecognized '#', "# \"".toList) := by
    decide
  obtain ⟨-, -, -, hfirst⟩ := charFault?_agrees ") \"#\" # \"".toList
  exact ⟨hfault, (hfirst _ _).1 hfault⟩

end Lineup.RuleText
