import Lineup.Proofs.RuleText.Tokens
import Mathlib.Logic.Relation

/-!
# Phrases before other texts

What follows a phrase is no part of it, so the phrase stays one when another text takes the place
of the rest (`Portable`). Words alone look at what follows them: no character of a word may come
to stand there (`Keeps`). Phrases that follow one another are moved one by one
(`Portable.comp`), which leaves the tokens as the only ones to be looked into.
-/

namespace Lineup.RuleText

open Text (Blanks Stops stops_cons)
open Decimal (pointed)
open Grammar

/-- Says that `r'` can follow a word if `r` can. -/
def Keeps (r r' : List Char) : Prop := Stops isWordPart r → Stops isWordPart r'

theorem keeps_append {u r r' : List Char} (h : Keeps r r') : Keeps (u ++ r) (u ++ r') := by
  cases u with
  | nil => exact h
  | cons c u => exact fun hc => stops_cons.2 (stops_cons.1 hc)

/-- A phrase of the kind `P`, whatever it says. -/
abbrev Any (P : List Char → α → List Char → Prop) (s r : List Char) : Prop := ∃ a, P s a r

/-- Says that the phrase of the kind `P` at the start of `s` is one before other rests than `r`
too. -/
def Portable (P : List Char → List Char → Prop) (s r : List Char) : Prop :=
  ∃ u, s = u ++ r ∧ ∀ r', Keeps r r' → P (u ++ r') r'

namespace Portable

variable {P Q : List Char → List Char → Prop} {s t r : List Char}

theorem imp (h : Portable P s r) (himp : ∀ s r, P s r → Q s r) : Portable Q s r := by
  obtain ⟨u, hs, hu⟩ := h
  exact ⟨u, hs, fun r' hr => himp _ _ (hu r' hr)⟩

theorem comp (h : Portable P s t) (h' : Portable Q t r) : Portable (Relation.Comp P Q) s r := by
  obtain ⟨u, rfl, hu⟩ := h
  obtain ⟨v, rfl, hv⟩ := h'
  refine ⟨u ++ v, (List.append_assoc u v r).symm, fun r' hr => ⟨v ++ r', ?_, hv r' hr⟩⟩
  rw [List.append_assoc]
  exact hu _ (keeps_append hr)

theorem any {P : List Char → α → List Char → Prop} {a : α} (h : Portable (P · a ·) s r) :
    Portable (Any P) s r :=
  h.imp fun _ _ hp => ⟨a, hp⟩

theorem eq (s : List Char) : Portable Eq s s := ⟨[], rfl, fun _ _ => rfl⟩

/-! ### Tokens -/

theorem blanks {l : List Char} (h : Blanks s (l ++ r)) :
    Portable (fun s r => Blanks s (l ++ r)) s r := by
  obtain ⟨w, hw, rfl⟩ := h
  exact ⟨w ++ l, (List.append_assoc w l r).symm, fun r' _ => ⟨w, hw, List.append_assoc w l r'⟩⟩

theorem mark {m : String} (h : Mark m s r) : Portable (Mark m) s r := blanks h

theorem word {w : String} (h : Word w s r) : Portable (Word w) s r := by
  obtain ⟨hw, hm, hstop⟩ := h
  obtain ⟨u, hs, hu⟩ := mark hm
  exact ⟨u, hs, fun r' hr => ⟨hw, hu r' hr, hr hstop⟩⟩

theorem name {n : String} (h : Name n s r) : Portable (Name n) s r :=
  (word h.1).imp fun _ _ hw => ⟨hw, h.2⟩

theorem index {n : Int64} (h : Index n s r) : Portable (Index n) s r := by
  obtain ⟨minus, digits, hd, hb, hn⟩ := h
  rw [← signed_append] at hb
  refine (blanks hb).imp fun s r hb => ⟨minus, digits, hd, ?_, hn⟩
  rwa [← signed_append]

theorem number {x : Binary64} (h : Number x s r) : Portable (Number x) s r := by
  obtain ⟨minus, whole, places, m, hw, hp, hb, hm, hx⟩ := h
  rw [← List.append_assoc, ← signed_append] at hb
  refine (blanks hb).imp fun s r hb => ⟨minus, whole, places, m, hw, hp, ?_, hm, hx⟩
  rwa [← List.append_assoc, ← signed_append]

theorem quotation {v : String} (h : Quotation v s r) : Portable (Quotation v) s r := by
  obtain ⟨hv, hb⟩ := h
  have hshape : ∀ r, '"' :: (v.toList ++ '"' :: r) = '"' :: v.toList ++ ['"'] ++ r := fun r => by
    simp
  rw [hshape] at hb
  refine (blanks hb).imp fun s r hb => ⟨hv, ?_⟩
  rwa [hshape]

/-! ### Phrases -/

theorem term {t : Term} (h : TermPhrase s t r) : Portable (TermPhrase · t ·) s r := by
  cases h with
  | bare hn => exact (name hn).imp fun _ _ hn => .bare hn
  | pinned hn hm hi =>
    exact ((name hn).comp ((mark hm).comp (index hi))).imp
      fun _ _ ⟨_, hn, _, hm, hi⟩ => .pinned hn hm hi

theorem operand {v : Operand} (h : OperandPhrase s v r) : Portable (OperandPhrase · v ·) s r := by
  cases h with
  | number hx => exact (number hx).imp fun _ _ hx => .number hx
  | true hw => exact (word hw).imp fun _ _ hw => .true hw
  | false hw => exact (word hw).imp fun _ _ hw => .false hw
  | string hv => exact (quotation hv).imp fun _ _ hv => .string hv
  | term ht => exact (term ht).imp fun _ _ ht => .term ht

theorem comparison {c : Comparison} (h : ComparisonPhrase s c r) :
    Portable (ComparisonPhrase · c ·) s r := by
  obtain ⟨ht, ho, hv⟩ := h
  exact ((term ht).comp ((mark ho).comp (operand hv))).imp
    fun _ _ ⟨_, ht, _, ho, hv⟩ => .intro ht ho hv

theorem condition {tier : Tier} {c : Condition} (h : ConditionPhrase tier s c r) :
    Portable (ConditionPhrase tier · c ·) s r := by
  induction h with
  | comparison hc => exact (comparison hc).imp fun _ _ hc => .comparison hc
  | parentheses hopen _ hclose ih =>
    exact ((mark hopen).comp (ih.comp (mark hclose))).imp
      fun _ _ ⟨_, hopen, _, hc, hclose⟩ => .parentheses hopen hc hclose
  | primary _ ih => exact ih.imp fun _ _ hc => .primary hc
  | and _ hw _ ihc ihd =>
    exact (ihc.comp ((word hw).comp ihd)).imp fun _ _ ⟨_, hc, _, hw, hd⟩ => .and hc hw hd
  | conjunction _ ih => exact ih.imp fun _ _ hc => .conjunction hc
  | or _ hw _ ihc ihd =>
    exact (ihc.comp ((word hw).comp ihd)).imp fun _ _ ⟨_, hc, _, hw, hd⟩ => .or hc hw hd

theorem slot {v : Slot} (h : SlotPhrase s v r) : Portable (SlotPhrase · v ·) s r := by
  cases h with
  | bare hn => exact (name hn).imp fun _ _ hn => .bare hn
  | constrained hn hopen hc hclose =>
    exact ((name hn).comp ((mark hopen).comp ((condition hc).comp (mark hclose)))).imp
      fun _ _ ⟨_, hn, _, hopen, _, hc, hclose⟩ => .constrained hn hopen hc hclose
  | pinned hn hm hi =>
    exact ((name hn).comp ((mark hm).comp (index hi))).imp
      fun _ _ ⟨_, hn, _, hm, hi⟩ => .pinned hn hm hi

theorem slots {sep : List Char → List Char → Prop} {p : Pattern}
    (hsep : ∀ {t u}, sep t u → Portable sep t u) (h : SlotsPhrase sep s p r) :
    Portable (SlotsPhrase sep · p ·) s r := by
  induction h with
  | one hv => exact (slot hv).imp fun _ _ hv => .one hv
  | more hv ht _ ih =>
    exact ((slot hv).comp ((hsep ht).comp ih)).imp fun _ _ ⟨_, hv, _, ht, hp⟩ => .more hv ht hp

theorem pattern {p : Pattern} (h : PatternPhrase s p r) : Portable (PatternPhrase · p ·) s r := by
  cases h with
  | commas hp => exact (slots mark hp).imp fun _ _ hp => .commas hp
  | sideBySide hp => exact (slots (fun ht => ht ▸ eq _) hp).imp fun _ _ hp => .sideBySide hp
  | arrow hv hm hw =>
    exact ((slot hv).comp ((mark hm).comp (slot hw))).imp
      fun _ _ ⟨_, hv, _, hm, hw⟩ => .arrow hv hm hw

theorem rule {v : Rule} (h : RulePhrase s v r) : Portable (RulePhrase · v ·) s r := by
  cases h with
  | simple hp => exact (pattern hp).imp fun _ _ hp => .simple hp
  | conditional hif hc hthen hp =>
    exact ((word hif).comp ((condition hc).comp ((word hthen).comp (pattern hp)))).imp
      fun _ _ ⟨_, hif, _, hc, _, hthen, hp⟩ => .conditional hif hc hthen hp
  | alternative hif hc hthen hp helse hq =>
    exact ((word hif).comp ((condition hc).comp ((word hthen).comp
      ((pattern hp).comp ((word helse).comp (pattern hq)))))).imp
      fun _ _ ⟨_, hif, _, hc, _, hthen, _, hp, _, helse, hq⟩ =>
        .alternative hif hc hthen hp helse hq

end Portable

end Lineup.RuleText
