import Lineup.Rule.Validity

/-!
# The parts of a rule

The positions, conditions, comparisons, names of slots and numbers of a rule, each in reading order,
where a slot's own position comes before those in its condition. The fault of a rule is the first
fault of its positions.
-/

namespace Lineup

/-! ### Positions -/

def Term.positions (t : Term) : List Position := t.position.toList

def Operand.positions : Operand → List Position
  | .term t => t.positions
  | _ => []

def Comparison.positions (c : Comparison) : List Position :=
  c.subject.positions ++ c.operand.positions

def Condition.positions : Condition → List Position
  | .comparison c => c.positions
  | .group c => c.positions
  | .join _ l r => l.positions ++ r.positions

def Slot.positions (s : Slot) : List Position :=
  s.position.toList ++ s.constraint.toList.flatMap Condition.positions

def Pattern.positions (p : Pattern) : List Position := p.flatMap Slot.positions

def Rule.positions : Rule → List Position
  | .simple p => p.positions
  | .conditional c p q => c.positions ++ p.positions ++ q.toList.flatMap Pattern.positions

theorem positionFault?_eq (p : Option Position) :
    positionFault? p = p.toList.findSome? Position.fault? := by
  cases p with
  | none => rfl
  | some p => simp [positionFault?]

theorem Operand.fault?_eq (v : Operand) : v.fault? = v.positions.findSome? Position.fault? := by
  cases v with
  | term t => exact positionFault?_eq t.position
  | _ => rfl

theorem Comparison.fault?_eq (c : Comparison) :
    c.fault? = c.positions.findSome? Position.fault? := by
  rw [fault?, positions, List.findSome?_append, positionFault?_eq, Operand.fault?_eq]
  rfl

theorem Condition.fault?_eq (c : Condition) :
    c.fault? = c.positions.findSome? Position.fault? := by
  induction c with
  | comparison c => exact c.fault?_eq
  | group c ih => exact ih
  | join o l r ihl ihr => rw [fault?, positions, List.findSome?_append, ihl, ihr]

theorem Slot.fault?_eq (s : Slot) : s.fault? = s.positions.findSome? Position.fault? := by
  rw [fault?, positions, List.findSome?_append, positionFault?_eq]
  cases s.constraint with
  | none => rfl
  | some c => simp [Condition.fault?_eq]

theorem Pattern.fault?_eq (p : Pattern) : p.fault? = p.positions.findSome? Position.fault? := by
  induction p with
  | nil => rfl
  | cons s p ih =>
    rw [positions, List.flatMap_cons, List.findSome?_append, ← Slot.fault?_eq]
    rw [positions] at ih
    rw [← ih, fault?, List.findSome?_cons]
    cases s.fault? <;> rfl

/-- A rule has the first fault that one of its positions has. -/
theorem Rule.fault?_eq (r : Rule) : r.fault? = r.positions.findSome? Position.fault? := by
  cases r with
  | simple p => exact p.fault?_eq
  | conditional c p q =>
    rw [fault?, positions, List.findSome?_append, List.findSome?_append, Condition.fault?_eq,
      Pattern.fault?_eq]
    cases q with
    | none => rfl
    | some q => simp [Pattern.fault?_eq]

theorem Rule.fault?_eq_none_iff {r : Rule} :
    r.fault? = none ↔ ∀ p ∈ r.positions, p.fault? = none := by
  rw [fault?_eq, List.findSome?_eq_none_iff]

/-! ### Conditions, names and numbers -/

def Slot.conditions (s : Slot) : List Condition := s.constraint.toList

def Pattern.conditions (p : Pattern) : List Condition := p.flatMap Slot.conditions

def Rule.conditions : Rule → List Condition
  | .simple p => p.conditions
  | .conditional c p q => c :: (p.conditions ++ q.toList.flatMap Pattern.conditions)

theorem Pattern.mem_conditions {p : Pattern} {s : Slot} {c : Condition} (hs : s ∈ p)
    (hc : s.constraint = some c) : c ∈ p.conditions :=
  List.mem_flatMap_of_mem hs (by rw [Slot.conditions, hc]; exact List.mem_cons_self)

/-- The comparisons that a condition joins. -/
def Condition.comparisons : Condition → List Comparison
  | .comparison c => [c]
  | .group c => c.comparisons
  | .join _ l r => l.comparisons ++ r.comparisons

def Rule.comparisons (r : Rule) : List Comparison := r.conditions.flatMap Condition.comparisons

/-- The names that the slots of a pattern ask for. -/
def Pattern.slotNames (p : Pattern) : List String := p.map Slot.name

def Rule.slotNames : Rule → List String
  | .simple p => p.slotNames
  | .conditional _ p q => p.slotNames ++ q.toList.flatMap Pattern.slotNames

def Operand.numbers : Operand → List Binary64
  | .number x => [x]
  | _ => []

def Condition.numbers : Condition → List Binary64
  | .comparison c => c.operand.numbers
  | .group c => c.numbers
  | .join _ l r => l.numbers ++ r.numbers

def Rule.numbers (r : Rule) : List Binary64 := r.conditions.flatMap Condition.numbers

end Lineup
