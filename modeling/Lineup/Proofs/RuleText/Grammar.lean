import Lineup.Proofs.Binary64.Plain
import Lineup.Proofs.Text.Runs
import Lineup.RuleText.Lexeme

/-!
# The grammar of rules

Which texts are rules, and what they say, without regard to how they are read:

* rule: pattern, or `if` condition `then` pattern, then possibly `else` pattern
* pattern: slots with commas between, or slots side by side, or two slots with `->` between
* slot: name, or name `(` condition `)`, or name `@` index
* condition: conditions joined by `or`, each of them conditions joined by `and`, each of them a
  comparison or `(` condition `)`; joining leans to the left and parentheses leave no mark
* comparison: term, relation, operand
* operand: number, `true`, `false`, string, term
* term: name, or name `@` index

A phrase relates a text that starts with it to the rest of the text behind it. Blanks may stand
before each of its parts. A word extends as far as possible, so its rest does not go on with a
character of a word; no other part looks at what follows it.
-/

namespace Lineup.RuleText.Grammar

open Text (Blanks Stops)
open Decimal (Digits pointed)

/-! ### Tokens -/

/-- Fixed characters. -/
def Mark (m : String) (s r : List Char) : Prop := Blanks s (m.toList ++ r)

/-- A letter or an underscore, and then letters, digits and underscores. -/
def IsWord (w : String) : Prop :=
  ∃ c l, w.toList = c :: l ∧ isWordStart c ∧ ∀ d ∈ l, isWordPart d

def Word (w : String) (s r : List Char) : Prop := IsWord w ∧ Mark w s r ∧ Stops isWordPart r

/-- A word that is no keyword. -/
def Name (n : String) (s r : List Char) : Prop := Word n s r ∧ n ∉ keywords

/-- A text with or without a minus sign before it. -/
def signed (minus : Bool) (s : List Char) : List Char := if minus then '-' :: s else s

/-- An integer of sixty-four bits. -/
def Index (n : Int64) (s r : List Char) : Prop :=
  ∃ minus digits, Digits digits ∧ Blanks s (signed minus (digits ++ r)) ∧
    n.toInt = withSign minus (Nat.ofDigitChars 10 digits 0)

/-- A decimal, which stands for the number nearest to it. -/
def Number (x : Binary64) (s r : List Char) : Prop :=
  ∃ minus whole places m, Digits whole ∧ (∀ c ∈ places, c.isDigit) ∧
    Blanks s (signed minus (whole ++ (pointed places ++ r))) ∧
    Binary64.IsNearest (Decimal.ofDigits whole places 0).value m ∧ x = .ofParts minus m

/-- A text between quotes, with no quote and no end of line in it. -/
def Quotation (v : String) (s r : List Char) : Prop :=
  (∀ c ∈ v.toList, isStringPart c) ∧ Blanks s ('"' :: (v.toList ++ '"' :: r))

/-! ### Conditions -/

inductive TermPhrase : List Char → Term → List Char → Prop where
  | bare : Name n s r → TermPhrase s ⟨n, none⟩ r
  | pinned : Name n s t → Mark "@" t u → Index i u r → TermPhrase s ⟨n, some (.absolute i)⟩ r

inductive OperandPhrase : List Char → Operand → List Char → Prop where
  | number : Number x s r → OperandPhrase s (.number x) r
  | true : Word "true" s r → OperandPhrase s (.boolean true) r
  | false : Word "false" s r → OperandPhrase s (.boolean false) r
  | string : Quotation v s r → OperandPhrase s (.string v) r
  | term : TermPhrase s t r → OperandPhrase s (.term t) r

inductive ComparisonPhrase : List Char → Comparison → List Char → Prop where
  | intro : TermPhrase s t u → Mark o.symbol u v → OperandPhrase v w r →
    ComparisonPhrase s ⟨t, o, w⟩ r

/-- The tiers of conditions, from the one that binds tightest. -/
inductive Tier where
  | primary | conjunction | disjunction

inductive ConditionPhrase : Tier → List Char → Condition → List Char → Prop where
  | comparison : ComparisonPhrase s c r → ConditionPhrase .primary s (.comparison c) r
  | parentheses : Mark "(" s t → ConditionPhrase .disjunction t c u → Mark ")" u r →
    ConditionPhrase .primary s c r
  | primary : ConditionPhrase .primary s c r → ConditionPhrase .conjunction s c r
  | and : ConditionPhrase .conjunction s c t → Word "and" t u → ConditionPhrase .primary u d r →
    ConditionPhrase .conjunction s (.join .and c d) r
  | conjunction : ConditionPhrase .conjunction s c r → ConditionPhrase .disjunction s c r
  | or : ConditionPhrase .disjunction s c t → Word "or" t u → ConditionPhrase .conjunction u d r →
    ConditionPhrase .disjunction s (.join .or c d) r

/-! ### Patterns and rules -/

inductive SlotPhrase : List Char → Slot → List Char → Prop where
  | bare : Name n s r → SlotPhrase s ⟨n, none, none⟩ r
  | constrained : Name n s t → Mark "(" t u → ConditionPhrase .disjunction u c v → Mark ")" v r →
    SlotPhrase s ⟨n, some c, none⟩ r
  | pinned : Name n s t → Mark "@" t u → Index i u r →
    SlotPhrase s ⟨n, none, some (.absolute i)⟩ r

/-- Slots, at least one, with a separator between each and the next. -/
inductive SlotsPhrase (sep : List Char → List Char → Prop) :
    List Char → Pattern → List Char → Prop where
  | one : SlotPhrase s v r → SlotsPhrase sep s [v] r
  | more : SlotPhrase s v t → sep t u → SlotsPhrase sep u p r → SlotsPhrase sep s (v :: p) r

inductive PatternPhrase : List Char → Pattern → List Char → Prop where
  | commas : SlotsPhrase (Mark ",") s p r → PatternPhrase s p r
  | sideBySide : SlotsPhrase Eq s p r → PatternPhrase s p r
  | arrow : SlotPhrase s v t → Mark "->" t u → SlotPhrase u w r → PatternPhrase s [v, w] r

inductive RulePhrase : List Char → Rule → List Char → Prop where
  | simple : PatternPhrase s p r → RulePhrase s (.simple p) r
  | conditional : Word "if" s t → ConditionPhrase .disjunction t c u → Word "then" u v →
    PatternPhrase v p r → RulePhrase s (.conditional c p none) r
  | alternative : Word "if" s t → ConditionPhrase .disjunction t c u → Word "then" u v →
    PatternPhrase v p w → Word "else" w x → PatternPhrase x q r →
    RulePhrase s (.conditional c p (some q)) r

/-- A text that is a rule from end to end, but for blanks. -/
def Derives (s : List Char) (r : Rule) : Prop := ∃ rest, RulePhrase s r rest ∧ Blanks rest []

end Lineup.RuleText.Grammar
