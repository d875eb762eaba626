import Lineup.Binary64.Rounding
import Lineup.Json.Tree

/-!
# Shapes of trees

How records and choices are told from a tree. A record is an object, of which unknown members are
ignored and no known one may be repeated, or an array of all its fields in order. A choice is an
object with exactly one member, and one that carries nothing may be just its name.
-/

namespace Lineup.Json

/-- The members of an object whose names are all texts. -/
def textMembers? : List (Option String × Json) → Option (List (String × Json))
  | [] => some []
  | (some k, j) :: l => (textMembers? l).map ((k, j) :: ·)
  | (none, _) :: _ => none

/-- The only member of a list of that name: `some none` when there is none, `none` when there are
several. -/
def field? (l : List (String × Json)) (name : String) : Option (Option Json) :=
  match l.filter (·.1 = name) with
  | [] => some none
  | [(_, j)] => some (some j)
  | _ => none

/-- The fields of a record in the given order, those missing from an object being `none`. -/
def fields? (names : List String) : Json → Option (List (Option Json))
  | object l => do
    let l ← textMembers? l
    names.mapM (field? l)
  | array l => if l.length = names.length then some (l.map some) else none
  | _ => none

/-- The name and the content of a choice that carries something. -/
def variant? : Json → Option (String × Json)
  | object [(some tag, j)] => some (tag, j)
  | _ => none

/-- The name of a choice that carries nothing. With brackets it takes up a level. -/
def unit? (depth : Nat) : Json → Option String
  | string (some s) => some s
  | object [(some tag, null)] => if depth = 0 then none else some tag
  | _ => none

def asString? : Json → Option String
  | string s => s
  | _ => none

def asNull? : Json → Option Unit
  | null => some ()
  | _ => none

def asBool? : Json → Option Bool
  | bool b => some b
  | _ => none

def asInt? : Json → Option Int64
  | int n => some n
  | _ => none

/-- A number as a float, which has to be finite. An integer counts as the nearest one. -/
def asFloat? : Json → Option Binary64
  | int n => some (.ofInt n.toInt)
  | float x => if x.isFinite then some x else none
  | _ => none

/-- What may be absent or null. -/
def optional? (decode : Json → Option α) : Option Json → Option (Option α)
  | none | some null => some none
  | some j => (decode j).map some

end Lineup.Json
