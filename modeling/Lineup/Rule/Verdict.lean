import Lineup.Properties
import Lineup.Rule.Basic

/-!
# Verdicts

Whether a condition holds and whether a sequence of items, a hand, matches a rule. What cannot be
found or compared makes the comparison that needs it false and nothing else: a missing property,
null and a position outside the hand never make a comparison true, not even with `!=`.
-/

namespace Lineup

/-- How truth values stand to each other under the relations other than `=` and `!=`. -/
inductive BoolOrdering where
  /-- No such relation holds between truth values. -/
  | reject
  | falseBeforeTrue
deriving DecidableEq

/-- Where a condition is judged: at an item, and possibly at an index of a hand. -/
structure Context where
  item : Properties
  hand : Option (List Properties)
  index : Nat

/-- The index that a position stands for. -/
def Position.index? : Position → Option Nat
  | .absolute n => if n.toInt < 0 then none else some n.toInt.toNat
  | .relative _ => none

namespace Context

/-- The item at a position of the hand. -/
def itemAt? (x : Context) (p : Position) : Option Properties := do
  let hand ← x.hand
  let i ← p.index?
  hand[i]?

/-- The item that the subject of a comparison is read from. -/
def subjectItem? (x : Context) : Option Position → Option Properties
  | some p => x.itemAt? p
  | none => some x.item

/-- The item that the other side is read from. Without a position that is the one at the current
index, if there is a hand. -/
def operandItem? (x : Context) : Option Position → Option Properties
  | some p => x.itemAt? p
  | none =>
    match x.hand with
    | some hand => hand[x.index]?
    | none => some x.item

def subject? (x : Context) (t : Term) : Option Value :=
  (x.subjectItem? t.position).bind (·.present? t.name)

def operand? (x : Context) (t : Term) : Option Value :=
  (x.operandItem? t.position).bind (·.present? t.name)

end Context

namespace Value

/-- A value as a number, truth values counting as zero and one. -/
def coerced? : Value → Option Binary64
  | bool b => some (.ofInt b.toNat)
  | v => v.asNumber?

/-- The order of two properties: as numbers where both are, else as texts. -/
def coercedOrder? (v w : Value) : Option Ordering :=
  match v.coerced?, w.coerced? with
  | some x, some y => x.compare? y
  | _, _ => some (compare v.text w.text)

/-- Whether a value stands in a relation to a truth value; only truth values do. -/
def relatesToBool (o : BoolOrdering) (r : Relation) (b : Bool) : Value → Bool
  | bool a => (r.isEquality || o = .falseBeforeTrue) && r.holds (compare a b)
  | _ => false

end Value

def Comparison.holds (o : BoolOrdering) (x : Context) (c : Comparison) : Bool :=
  match x.subject? c.subject with
  | none => false
  | some v =>
    match c.operand with
    | .number y => v.asNumber?.any fun n => c.relation.admits (n.compare? y)
    | .boolean b => v.relatesToBool o c.relation b
    | .string s => c.relation.holds (compare v.text s)
    | .term t => (x.operand? t).any fun w => c.relation.admits (v.coercedOrder? w)

def Connective.apply : Connective → Bool → Bool → Bool
  | .and, a, b => a && b
  | .or, a, b => a || b

def Condition.holds (o : BoolOrdering) (x : Context) : Condition → Bool
  | .comparison c => c.holds o x
  | .group c => c.holds o x
  | .join op l r => op.apply (l.holds o x) (r.holds o x)

/-- A condition that is absent holds. -/
def holdsIfAny (o : BoolOrdering) (x : Context) : Option Condition → Bool
  | some c => c.holds o x
  | none => true

/-- Whether the item at an index is one that a slot asks for. -/
def Slot.fits (o : BoolOrdering) (hand : List Properties) (s : Slot) (j : Nat) : Bool :=
  match hand[j]? with
  | some item => item.holdsString s.name && holdsIfAny o ⟨item, some hand, j⟩ s.constraint
  | none => false

/-- Whether the slot at place `i` of a pattern finds its item: at its own position if it has one,
else anywhere from index `i` on, whatever items other slots have found. -/
def Slot.found (o : BoolOrdering) (hand : List Properties) (s : Slot) (i : Nat) : Bool :=
  match s.position with
  | some p => p.index?.any (s.fits o hand)
  | none => (List.range hand.length).any fun j => i ≤ j && s.fits o hand j

def Pattern.matched (o : BoolOrdering) (hand : List Properties) (p : Pattern) : Bool :=
  p.zipIdx.all fun (s, i) => s.found o hand i

/-- Whether a hand matches a rule. The condition of a conditional rule is judged at the first item,
so an empty hand matches no such rule. -/
def Rule.matched (o : BoolOrdering) (hand : List Properties) : Rule → Bool
  | .simple p => p.matched o hand
  | .conditional c p q =>
    match hand with
    | [] => false
    | first :: _ =>
      if c.holds o ⟨first, some hand, 0⟩ then p.matched o hand
      else q.any (·.matched o hand)

end Lineup
