import Lineup.Value.Equality

/-!
# Tests

What can be asked of one property of an item: a relation to a value, membership in a list, or
whether there is a value at all. A property that is absent or null counts as no value. It passes
only the tests that ask for no value; every other test fails, `!=` and `not in` included.
-/

namespace Lineup

inductive Test where
  | related (r : Relation)
  | member
  | notMember
  | present
  | absent
deriving DecidableEq

/-- What a test compares with. -/
inductive Expected where
  | one (v : Value)
  | many (vs : List Value)

/-- What is asked of a property in place of a value when only its presence matters. -/
def Expected.nothing : Expected := .one .null

def Expected.isNothing : Expected → Bool
  | .one .null => true
  | _ => false

def Expected.shown : Expected → String
  | .one v => v.shown
  | .many vs => "[" ++ ", ".intercalate (vs.map Value.shown) ++ "]"

namespace Test

def all : List Test := Relation.all.map related ++ [member, notMember, present, absent]

def text : Test → String
  | related r => r.symbol
  | member => "in"
  | notMember => "not in"
  | present => "exists"
  | absent => "not exists"

def relation? : Test → Option Relation
  | related r => some r
  | _ => none

def isMembership (t : Test) : Bool := t = member || t = notMember

def isPresence (t : Test) : Bool := t = present || t = absent

/-- Whether a test can be asked with what it is to compare with. -/
def admits (t : Test) (e : Expected) : Bool :=
  if t.isMembership then e matches .many _
  else if t.isPresence then e.isNothing
  else e matches .one _

/-- Whether a value that is there passes a test. Two values that cannot be compared are unequal and
stand in no other relation. -/
def passesValue (t : Test) (a : Value) (e : Expected) : Bool :=
  match t, e with
  | present, _ => true
  | absent, _ => false
  | member, .many vs => vs.any a.comparesEqual
  | notMember, .many vs => !vs.any a.comparesEqual
  | related .eq, .one v => a.comparesEqual v
  | related .ne, .one v => !a.comparesEqual v
  | related r, .one v => a.related? r v = some true
  | _, _ => false

/-- Whether a property passes a test. -/
def passes (t : Test) (actual : Option Value) (e : Expected) : Bool :=
  match actual.filter (fun v => !v.isNull) with
  | none => t = absent || (t = related .eq && e.isNothing)
  | some a => if e.isNothing then t = related .ne || t = present else t.passesValue a e

end Test

end Lineup
