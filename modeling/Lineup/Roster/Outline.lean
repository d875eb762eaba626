import Lineup.Roster.Build
import Lineup.Text.Quoted

/-!
# Outlines

The full makeup of a roster as one line of text, in which strings are quoted, the kind of every
value is named and a number always shows whether it is a whole one or a float.
-/

namespace Lineup

def Value.outline : Value → String
  | .null => "Null"
  | .bool b => "Bool(" ++ (if b then "true" else "false") ++ ")"
  | .int n => "Int(" ++ toString n.toInt ++ ")"
  | .float x => "Float(" ++ x.text .marked ++ ")"
  | .string s => "String(" ++ Text.quoted s ++ ")"

/-- The outlines of the members of a list. -/
def listOutline (outlines : List String) : String := "[" ++ ", ".intercalate outlines ++ "]"

def Expected.outline : Expected → String
  | .one v => "One(" ++ v.outline ++ ")"
  | .many vs => "Many(" ++ listOutline (vs.map Value.outline) ++ ")"

def Test.outline : Test → String
  | .related r => r.label
  | .member => "In"
  | .notMember => "NotIn"
  | .present => "Exists"
  | .absent => "NotExists"

def Requirement.outline : Requirement → String
  | .test property t e =>
    "Compare \x7b property: " ++ Text.quoted property ++ ", op: " ++ t.outline ++ ", value: " ++
      e.outline ++ " \x7d"
  | .check label _ => "Predicate \x7b label: " ++ Text.quoted label ++ ", .. \x7d"

def Roster.outline (r : Roster) : String :=
  "SequenceRule \x7b conditions: " ++ listOutline (r.requirements.map Requirement.outline) ++
    ", sequence: " ++ Text.quotedList r.names ++ ", .. \x7d"

end Lineup
