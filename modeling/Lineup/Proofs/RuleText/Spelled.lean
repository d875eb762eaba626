import Lineup.Proofs.Rule.Parts
import Lineup.Proofs.RuleText.Tokens

/-!
# Rules that can be written

A program can build rules that have no text of their own: with names that are keywords, strings
with quotes in them, slots with both a condition and a position, and so on. A rule without such
parts is `Spelled`, and it is `Printable` if its numbers are finite and its positions are valid.
-/

namespace Lineup

open Text (stops_nil)
open RuleText Grammar

/-- A word that is no keyword. -/
def RuleText.IsName (n : String) : Prop := IsWord n ∧ n ∉ keywords

def Position.IsAbsolute : Position → Prop
  | .absolute _ => True
  | .relative _ => False

/-- A position that is an index. -/
def Position.IsIndex : Position → Prop
  | .absolute n => 0 ≤ n.toInt
  | .relative _ => False

structure Term.Spelled (t : Term) : Prop where
  name : IsName t.name
  position : ∀ p ∈ t.position, p.IsAbsolute

def Operand.Spelled : Operand → Prop
  | .number _ | .boolean _ => True
  | .string v => ∀ c ∈ v.toList, isStringPart c
  | .term t => t.Spelled

structure Comparison.Spelled (c : Comparison) : Prop where
  subject : c.subject.Spelled
  operand : c.operand.Spelled

def Condition.Spelled : Condition → Prop
  | .comparison c => c.Spelled
  | .group c => c.Spelled
  | .join _ l r => l.Spelled ∧ r.Spelled

structure Slot.Spelled (s : Slot) : Prop where
  name : IsName s.name
  constraint : ∀ c ∈ s.constraint, c.Spelled
  position : ∀ p ∈ s.position, p.IsAbsolute
  one : s.constraint = none ∨ s.position = none

structure Pattern.Spelled (p : Pattern) : Prop where
  ne_nil : p ≠ []
  slots : ∀ s ∈ p, s.Spelled

/-- Says that a rule can be written as the grammar has it, but for numbers that are not finite. -/
def Rule.Spelled : Rule → Prop
  | .simple p => p.Spelled
  | .conditional c p q => c.Spelled ∧ p.Spelled ∧ ∀ q' ∈ q, q'.Spelled

/-- Says that a rule can be written and that what is written is a valid rule. -/
structure Rule.Printable (r : Rule) : Prop where
  spelled : r.Spelled
  finite : ∀ x ∈ r.numbers, x.isFinite
  valid : ∀ p ∈ r.positions, p.IsIndex

theorem Position.IsIndex.fault? {p : Position} (h : p.IsIndex) : p.fault? = none := by
  cases p with
  | absolute n => exact if_neg (Int.not_lt.2 h)
  | relative n => exact h.elim

theorem Rule.Printable.fault? {r : Rule} (h : r.Printable) : r.fault? = none :=
  Rule.fault?_eq_none_iff.2 fun p hp => (h.valid p hp).fault?

/-! ### Decidability -/

theorem RuleText.isWord_iff {w : String} : IsWord w ↔ word? w.toList = some (w, []) := by
  rw [word?_eq_some_iff]
  constructor
  · intro hw
    exact ⟨hw, (List.append_nil _).symm, stops_nil _⟩
  · intro h
    exact h.1

instance : DecidablePred IsWord := fun _ => decidable_of_iff _ isWord_iff.symm

instance (n : String) : Decidable (IsName n) := inferInstanceAs (Decidable (_ ∧ _))

instance : DecidablePred Position.IsAbsolute
  | .absolute _ => isTrue trivial
  | .relative _ => isFalse id

instance : DecidablePred Position.IsIndex
  | .absolute n => inferInstanceAs (Decidable (0 ≤ n.toInt))
  | .relative _ => isFalse id

instance (t : Term) : Decidable t.Spelled :=
  decidable_of_iff (IsName t.name ∧ ∀ p ∈ t.position, p.IsAbsolute)
    ⟨fun h => ⟨h.1, h.2⟩, fun h => ⟨h.1, h.2⟩⟩

instance : DecidablePred Operand.Spelled
  | .number _ | .boolean _ => isTrue trivial
  | .string v => decidable_of_iff (v.toList.all isStringPart) List.all_eq_true
  | .term t => inferInstanceAs (Decidable t.Spelled)

instance (c : Comparison) : Decidable c.Spelled :=
  decidable_of_iff (c.subject.Spelled ∧ c.operand.Spelled)
    ⟨fun h => ⟨h.1, h.2⟩, fun h => ⟨h.1, h.2⟩⟩

instance Condition.decidableSpelled : DecidablePred Condition.Spelled
  | .comparison c => inferInstanceAs (Decidable c.Spelled)
  | .group c => decidableSpelled c
  | .join _ l r => @instDecidableAnd _ _ (decidableSpelled l) (decidableSpelled r)

instance (s : Slot) : Decidable s.Spelled :=
  decidable_of_iff (IsName s.name ∧ (∀ c ∈ s.constraint, c.Spelled) ∧
      (∀ p ∈ s.position, p.IsAbsolute) ∧ (s.constraint = none ∨ s.position = none))
    ⟨fun h => ⟨h.1, h.2.1, h.2.2.1, h.2.2.2⟩, fun h => ⟨h.1, h.2, h.3, h.4⟩⟩

instance (p : Pattern) : Decidable p.Spelled :=
  decidable_of_iff (p ≠ [] ∧ ∀ s ∈ p, s.Spelled) ⟨fun h => ⟨h.1, h.2⟩, fun h => ⟨h.1, h.2⟩⟩

instance : DecidablePred Rule.Spelled
  | .simple p => inferInstanceAs (Decidable p.Spelled)
  | .conditional c p q =>
    inferInstanceAs (Decidable (c.Spelled ∧ p.Spelled ∧ ∀ q' ∈ q, q'.Spelled))

instance (r : Rule) : Decidable r.Printable :=
  decidable_of_iff (r.Spelled ∧ (∀ x ∈ r.numbers, x.isFinite) ∧ ∀ p ∈ r.positions, p.IsIndex)
    ⟨fun h => ⟨h.1, h.2.1, h.2.2⟩, fun h => ⟨h.1, h.2, h.3⟩⟩

end Lineup
