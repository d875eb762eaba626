import Lineup.Binary64.Numeral
import Lineup.Binary64.Text
import Lineup.Relation
import Lineup.Text.Blank

/-!
# Values

What a property of an item can hold. Values of one kind are ordered, integers and floats being one
kind; values of different kinds are never related, not even as unequal.
-/

namespace Lineup

inductive Value where
  | null
  | bool (b : Bool)
  | int (n : Int64)
  | float (x : Binary64)
  | string (s : String)

namespace Value

/-- The order of two values, `none` when their kinds differ or one of them is NaN. Two integers are
compared exactly; an integer is rounded to be compared with a float. -/
def compare? : Value → Value → Option Ordering
  | null, null => some .eq
  | bool a, bool b => some (compare a b)
  | int a, int b => some (compare a.toInt b.toInt)
  | float a, float b => a.compare? b
  | int a, float b => (Binary64.ofInt a.toInt).compare? b
  | float a, int b => a.compare? (.ofInt b.toInt)
  | string a, string b => some (compare a b)
  | _, _ => none

/-- Whether a relation holds between two values that can be compared. -/
def related? (r : Relation) (a b : Value) : Option Bool := (a.compare? b).map r.holds

/-- Whether two values can be compared and are equal, as `7` and `7.0` are. -/
def comparesEqual (a b : Value) : Bool := related? .eq a b = some true

def isNull : Value → Bool
  | null => true
  | _ => false

def asString? : Value → Option String
  | string s => some s
  | _ => none

/-- The number that a value is or spells. Truth values are no numbers. -/
def asNumber? : Value → Option Binary64
  | int n => some (.ofInt n.toInt)
  | float x => some x
  | string s => Binary64.ofChars? (Text.trim s.toList)
  | bool _ | null => none

/-- The text by which a value is compared with strings. A whole float keeps its point, so that it
is never taken for an integer. -/
def text : Value → String
  | null => "null"
  | bool b => if b then "True" else "False"
  | int n => toString n.toInt
  | float x => if x.isWhole then x.exactWholeText else x.text .plain
  | string s => s

/-- The form in which a value is shown to a reader. -/
def shown : Value → String
  | null => "null"
  | bool b => if b then "true" else "false"
  | int n => toString n.toInt
  | float x => x.text .plain
  | string s => "\"" ++ s ++ "\""

end Value

end Lineup
