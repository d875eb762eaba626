import Lineup.Binary64.Basic

/-!
# Trees of JSON

What a text of JSON stands for. An object keeps its members in order and with repetitions. A number
is an integer where it is written as one and fits sixty-four bits, and a float otherwise, as is a
zero with a sign. A string is `none` when its escapes spell half of a surrogate pair, which is no
character.
-/

namespace Lineup

inductive Json where
  | null
  | bool (b : Bool)
  | int (n : Int64)
  | float (x : Binary64)
  | string (s : Option String)
  | array (elements : List Json)
  | object (members : List (Option String × Json))

namespace Json

def ofString (s : String) : Json := string (some s)

/-- An object whose member names are texts. -/
def ofFields (l : List (String × Json)) : Json := object (l.map fun (k, j) => (some k, j))

mutual

/-- How many brackets are open within each other at most. -/
def depth : Json → Nat
  | array l => elementsDepth l + 1
  | object l => membersDepth l + 1
  | null | bool _ | int _ | float _ | string _ => 0

def elementsDepth : List Json → Nat
  | [] => 0
  | j :: l => max j.depth (elementsDepth l)

def membersDepth : List (Option String × Json) → Nat
  | [] => 0
  | (_, j) :: l => max j.depth (membersDepth l)

end

end Json

end Lineup
