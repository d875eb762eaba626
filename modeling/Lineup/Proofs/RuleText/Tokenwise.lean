import Lineup.Proofs.RuleText.Tokens
import Lineup.RuleText.Characters

/-!
# Looking texts over

Some things can be told of a text by looking over its characters, such as whether its strings are
closed. If a function of texts does not depend on a single token at their start (`Tokenwise`), it
does not depend on a whole phrase there, and so it cannot tell a rule from an empty text
(`Tokenwise.derives`). The function that looks for faults of characters is of this kind, so no rule
has such a fault.
-/

namespace Lineup.RuleText

open Text (isBlank Blanks ne_of_tells)
open Decimal (Digits pointed pointed_of_ne_nil)
open Grammar

/-- Whether a character can stand outside of strings without regard to what follows it. -/
def isPlain (c : Char) : Bool := isTokenChar c && c ≠ '-'

/-- Says that `f` does not depend on a token at the start of a text. -/
structure Tokenwise (f : List Char → α) : Prop where
  plain {c : Char} {s : List Char} : isPlain c → f (c :: s) = f s
  arrow {s : List Char} : f ('-' :: '>' :: s) = f s
  minus {c : Char} {s : List Char} : c.isDigit → f ('-' :: c :: s) = f (c :: s)
  quoted {v s : List Char} : (∀ c ∈ v, isStringPart c) → f ('"' :: (v ++ '"' :: s)) = f s

theorem isPlain_of_isWordPart {c : Char} (h : isWordPart c) : isPlain c := by
  have hne : c ≠ '-' := ne_of_tells h rfl
  rw [isWordPart, Bool.or_eq_true, decide_eq_true_eq] at h
  rw [isPlain, isTokenChar, Bool.and_eq_true, Bool.or_eq_true, Bool.or_eq_true, decide_eq_true_eq]
  refine ⟨?_, decide_eq_true hne⟩
  rcases h with h | rfl
  · exact .inl (.inr h)
  · exact .inr (by decide)

theorem isPlain_of_isBlank {c : Char} (h : isBlank c) : isPlain c := by
  have hne : c ≠ '-' := ne_of_tells h rfl
  rw [isPlain, isTokenChar, h, Bool.true_or, Bool.true_or, Bool.true_and]
  exact decide_eq_true hne

theorem Grammar.IsWord.isWordPart {w : String} (h : IsWord w) : ∀ c ∈ w.toList, isWordPart c := by
  obtain ⟨c, l, hl, hc, hall⟩ := h
  rw [hl]
  exact List.forall_mem_cons.2 ⟨isWordPart_of_isWordStart hc, hall⟩

namespace Tokenwise

variable {f : List Char → α} {s r : List Char}

theorem append (hf : Tokenwise f) {l : List Char} (h : l.all isPlain) : f (l ++ r) = f r := by
  induction l with
  | nil => rfl
  | cons c l ih =>
    obtain ⟨hc, hl⟩ := Bool.and_eq_true_iff.1 h
    rw [List.cons_append, hf.plain hc, ih hl]

/-! ### Tokens -/

theorem blanks (hf : Tokenwise f) (h : Blanks s r) : f s = f r := by
  obtain ⟨w, hw, rfl⟩ := h
  exact hf.append (List.all_eq_true.2 fun c hc => isPlain_of_isBlank (hw c hc))

theorem wordParts (hf : Tokenwise f) {l : List Char} (h : ∀ c ∈ l, isWordPart c) :
    f (l ++ r) = f r :=
  hf.append (List.all_eq_true.2 fun c hc => isPlain_of_isWordPart (h c hc))

theorem mark (hf : Tokenwise f) {m : String} (h : Mark m s r)
    (hm : m.toList.all isPlain) : f s = f r := by
  rw [hf.blanks h, hf.append hm]

theorem word (hf : Tokenwise f) {w : String} (h : Word w s r) : f s = f r := by
  obtain ⟨hw, hm, -⟩ := h
  rw [hf.blanks hm, hf.wordParts hw.isWordPart]

theorem digits (hf : Tokenwise f) {l : List Char} (h : ∀ c ∈ l, c.isDigit) : f (l ++ r) = f r :=
  hf.wordParts fun c hc => isWordPart_of_isDigit (h c hc)

theorem signed (hf : Tokenwise f) {minus : Bool} {l : List Char} (h : Digits l) :
    f (signed minus (l ++ r)) = f r := by
  cases minus with
  | false => exact hf.digits h.2
  | true =>
    cases l with
    | nil => exact absurd rfl h.1
    | cons c l =>
      have hminus : f ('-' :: (c :: l ++ r)) = f (c :: l ++ r) :=
        hf.minus (h.2 c List.mem_cons_self)
      exact hminus.trans (hf.digits h.2)

theorem pointed (hf : Tokenwise f) {l : List Char} (h : ∀ c ∈ l, c.isDigit) :
    f (pointed l ++ r) = f r := by
  by_cases hl : l = []
  · rw [hl]
    rfl
  · rw [pointed_of_ne_nil hl, List.cons_append, hf.plain (by decide), hf.digits h]

theorem index (hf : Tokenwise f) {n : Int64} (h : Index n s r) : f s = f r := by
  obtain ⟨minus, digits, hd, hb, -⟩ := h
  rw [hf.blanks hb, hf.signed hd]

theorem number (hf : Tokenwise f) {x : Binary64} (h : Number x s r) : f s = f r := by
  obtain ⟨minus, whole, places, m, hw, hp, hb, -⟩ := h
  rw [hf.blanks hb, hf.signed hw, hf.pointed hp]

theorem quotation (hf : Tokenwise f) {v : String} (h : Quotation v s r) : f s = f r := by
  obtain ⟨hv, hb⟩ := h
  rw [hf.blanks hb, hf.quoted hv]

theorem relation (hf : Tokenwise f) {o : Relation} (h : Mark o.symbol s r) : f s = f r := by
  refine hf.mark h ?_
  cases o <;> decide

/-! ### Phrases -/

theorem term (hf : Tokenwise f) {t : Term} (h : TermPhrase s t r) : f s = f r := by
  cases h with
  | bare hn => exact hf.word hn.1
  | pinned hn hm hi => rw [hf.word hn.1, hf.mark hm (by decide), hf.index hi]

theorem operand (hf : Tokenwise f) {v : Operand} (h : OperandPhrase s v r) : f s = f r := by
  cases h with
  | number hx => exact hf.number hx
  | true hw | false hw => exact hf.word hw
  | string hv => exact hf.quotation hv
  | term ht => exact hf.term ht

theorem condition (hf : Tokenwise f) {tier : Tier} {c : Condition}
    (h : ConditionPhrase tier s c r) : f s = f r := by
  induction h with
  | comparison hc =>
    obtain ⟨ht, ho, hv⟩ := hc
    rw [hf.term ht, hf.relation ho, hf.operand hv]
  | parentheses hopen _ hclose ih =>
    rw [hf.mark hopen (by decide), ih, hf.mark hclose (by decide)]
  | primary _ ih | conjunction _ ih => exact ih
  | and _ hw _ ihc ihd | or _ hw _ ihc ihd => rw [ihc, hf.word hw, ihd]

theorem slot (hf : Tokenwise f) {v : Slot} (h : SlotPhrase s v r) : f s = f r := by
  cases h with
  | bare hn => exact hf.word hn.1
  | constrained hn hopen hc hclose =>
    rw [hf.word hn.1, hf.mark hopen (by decide), hf.condition hc, hf.mark hclose (by decide)]
  | pinned hn hm hi => rw [hf.word hn.1, hf.mark hm (by decide), hf.index hi]

theorem slots (hf : Tokenwise f) {sep : List Char → List Char → Prop} {p : Pattern}
    (hsep : ∀ {t u}, sep t u → f t = f u) (h : SlotsPhrase sep s p r) : f s = f r := by
  induction h with
  | one hv => exact hf.slot hv
  | more hv ht _ ih => rw [hf.slot hv, hsep ht, ih]

theorem pattern (hf : Tokenwise f) {p : Pattern} (h : PatternPhrase s p r) : f s = f r := by
  cases h with
  | commas hp => exact hf.slots (fun ht => hf.mark ht (by decide)) hp
  | sideBySide hp => exact hf.slots (congrArg f) hp
  | arrow hv hm hw => rw [hf.slot hv, hf.blanks hm, ← hf.slot hw]; exact hf.arrow

/-- A rule is not told from an empty text. -/
theorem derives (hf : Tokenwise f) {v : Rule} (h : Derives s v) : f s = f [] := by
  obtain ⟨rest, hr, hrest⟩ := h
  rw [← hf.blanks hrest]
  cases hr with
  | simple hp => exact hf.pattern hp
  | conditional hif hc hthen hp =>
    rw [hf.word hif, hf.condition hc, hf.word hthen, hf.pattern hp]
  | alternative hif hc hthen hp helse hq =>
    rw [hf.word hif, hf.condition hc, hf.word hthen, hf.pattern hp, hf.word helse, hf.pattern hq]

end Tokenwise

/-! ### Faults of characters -/

theorem charFaultFrom?_string {t v s : List Char} (h : ∀ c ∈ v, isStringPart c) :
    charFaultFrom? (some t) (v ++ '"' :: s) = charFaultFrom? none s := by
  induction v with
  | nil => rw [List.nil_append, charFaultFrom?, if_pos rfl]
  | cons c v ih =>
    obtain ⟨hc, hv⟩ := List.forall_mem_cons.1 h
    simp only [isStringPart, Bool.and_eq_true, decide_eq_true_eq] at hc
    rw [List.cons_append, charFaultFrom?]
    simp only [if_neg hc.1.1, if_neg (not_or.2 ⟨hc.1.2, hc.2⟩), ih hv]

theorem charFault?_cons {c : Char} {s : List Char} (hc : isTokenChar c) :
    charFault? (c :: s) = charFault? s := by
  have hne : c ≠ '"' := ne_of_tells hc rfl
  simp only [charFault?, charFaultFrom?, if_neg hne, if_pos hc]

theorem tokenwise_charFault? : Tokenwise charFault? where
  plain hc := charFault?_cons (Bool.and_eq_true_iff.1 hc).1
  arrow := (charFault?_cons (by decide)).trans (charFault?_cons (by decide))
  minus _ := charFault?_cons (by decide)
  quoted hv := charFaultFrom?_string hv

/-- No rule has a fault of characters. -/
theorem charFault?_of_derives {s : List Char} {r : Rule} (h : Derives s r) : charFault? s = none :=
  tokenwise_charFault?.derives h

end Lineup.RuleText
