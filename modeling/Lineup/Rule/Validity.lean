import Lineup.Rule.Basic

/-!
# Valid rules

A rule is valid when each position in it is an absolute one and not negative. Of several faults
the one that comes first in reading order is reported, where a slot's own position comes before
those in its condition.
-/

namespace Lineup

inductive PositionFault where
  | negative (index : Int64)
  | relative (offset : Int64)
deriving DecidableEq

def PositionFault.message : PositionFault → String
  | .negative n => "Absolute position must be non-negative (got " ++ toString n.toInt ++ ")"
  | .relative n => "relative positions are not supported (offset " ++ toString n.toInt ++ ")"

def Position.fault? : Position → Option PositionFault
  | .absolute n => if n.toInt < 0 then some (.negative n) else none
  | .relative n => some (.relative n)

/-- The first fault of an optional position. -/
def positionFault? (p : Option Position) : Option PositionFault := p.bind Position.fault?

def Operand.fault? : Operand → Option PositionFault
  | .term t => positionFault? t.position
  | _ => none

def Comparison.fault? (c : Comparison) : Option PositionFault :=
  (positionFault? c.subject.position).or c.operand.fault?

def Condition.fault? : Condition → Option PositionFault
  | .comparison c => c.fault?
  | .group c => c.fault?
  | .join _ l r => l.fault?.or r.fault?

def Slot.fault? (s : Slot) : Option PositionFault :=
  (positionFault? s.position).or (s.constraint.bind Condition.fault?)

def Pattern.fault? (p : Pattern) : Option PositionFault := p.findSome? Slot.fault?

def Rule.fault? : Rule → Option PositionFault
  | .simple p => p.fault?
  | .conditional c p q => (c.fault?.or p.fault?).or (q.bind Pattern.fault?)

end Lineup
