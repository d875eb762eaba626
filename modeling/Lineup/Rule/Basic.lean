import Lineup.Binary64.Rounding
import Lineup.Relation

/-!
# Rules

A rule says which sequences of items match it. Its pattern is a list of slots, each of which asks
for an item that holds a given name as a value and meets a condition. A conditional rule chooses
its pattern by a condition. Conditions compare the properties of items with literals or with each
other.
-/

namespace Lineup

/-- Which item of a sequence is meant. A relative position counts from the current item; it can be
written down but is never resolved. -/
inductive Position where
  | absolute (index : Int64)
  | relative (offset : Int64)
deriving DecidableEq

/-- A property of the item at a position, or of the current item. -/
structure Term where
  name : String
  position : Option Position
deriving DecidableEq

inductive Operand where
  | number (x : Binary64)
  | boolean (b : Bool)
  | string (s : String)
  | term (t : Term)
deriving DecidableEq

structure Comparison where
  subject : Term
  relation : Relation
  operand : Operand
deriving DecidableEq

inductive Connective where
  | and | or
deriving DecidableEq

inductive Condition where
  | comparison (c : Comparison)
  | group (c : Condition)
  | join (op : Connective) (left right : Condition)
deriving DecidableEq

/-- One place of a pattern. -/
structure Slot where
  name : String
  constraint : Option Condition
  position : Option Position
deriving DecidableEq

abbrev Pattern := List Slot

inductive Rule where
  | simple (pattern : Pattern)
  | conditional (condition : Condition) (ifTrue : Pattern) (ifFalse : Option Pattern)
deriving DecidableEq

namespace Term

/-- A property of the current item. -/
def named (name : String) : Term := ⟨name, none⟩

/-- The same property of the item at an index. -/
def pinned (t : Term) (index : Int64) : Term := { t with position := some (.absolute index) }

def compared (t : Term) (r : Relation) (o : Operand) : Comparison := ⟨t, r, o⟩

end Term

namespace Condition

def and (c d : Condition) : Condition := join .and c d

def or (c d : Condition) : Condition := join .or c d

end Condition

/-- The operand for an integer is the number nearest to it. -/
def Operand.ofInt (n : Int64) : Operand := .number (.ofInt n.toInt)

end Lineup
