import Lineup.Rule.Basic

/-!
# Equality of rules

Two rules are equal when they are built alike and their numbers are equal as numbers. So a rule in
which NaN occurs is not equal to itself, and the two zeros are not told apart.
-/

namespace Lineup

def Operand.equal : Operand → Operand → Bool
  | .number x, .number y => x.equal y
  | .boolean a, .boolean b => a = b
  | .string s, .string t => s = t
  | .term t, .term u => t = u
  | _, _ => false

def Comparison.equal (c d : Comparison) : Bool :=
  c.subject = d.subject && c.relation = d.relation && c.operand.equal d.operand

def Condition.equal : Condition → Condition → Bool
  | .comparison c, .comparison d => c.equal d
  | .group c, .group d => c.equal d
  | .join op l r, .join op' l' r' => op = op' && l.equal l' && r.equal r'
  | _, _ => false

/-- Equality of what may be absent. -/
def equalIfAny (eq : α → α → Bool) : Option α → Option α → Bool
  | none, none => true
  | some a, some b => eq a b
  | _, _ => false

def Slot.equal (s t : Slot) : Bool :=
  s.name = t.name && equalIfAny Condition.equal s.constraint t.constraint && s.position = t.position

def Pattern.equal (p q : Pattern) : Bool := List.isEqv p q Slot.equal

def Rule.equal : Rule → Rule → Bool
  | .simple p, .simple q => p.equal q
  | .conditional c p q, .conditional c' p' q' =>
    c.equal c' && p.equal p' && equalIfAny Pattern.equal q q'
  | _, _ => false

end Lineup
