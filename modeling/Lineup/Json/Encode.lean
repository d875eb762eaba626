import Lineup.Item
import Lineup.Json.Tree
import Lineup.Rule.Checked

/-!
# Encoding

The trees that stand for values, items, rules and options. A choice between several shapes is an
object whose only member is named for the shape; what may be absent is null then.
-/

namespace Lineup

namespace Json

/-- The object that names a shape. -/
def tagged (tag : String) (j : Json) : Json := ofFields [(tag, j)]

def ofOption (encode : α → Json) : Option α → Json
  | some a => encode a
  | none => null

end Json

open Json

def Value.toJson : Value → Json
  | .null => Json.null
  | .bool b => Json.bool b
  | .int n => Json.int n
  | .float x => Json.float x
  | .string s => ofString s

def Properties.toJson (p : Properties) : Json :=
  ofFields (p.entries.map fun (k, v) => (k, v.toJson))

def Item.toJson (i : Item) : Json :=
  ofFields [("name", ofString i.name), ("properties", i.properties.toJson)]

def Position.toJson : Position → Json
  | .absolute n => tagged "Absolute" (Json.int n)
  | .relative n => tagged "Relative" (Json.int n)

def Relation.toJson (r : Relation) : Json := ofString r.label

/-- The members that a property stands for within another object. -/
def Term.fields (t : Term) : List (String × Json) :=
  [("identifier", ofString t.name), ("position", ofOption Position.toJson t.position)]

def Operand.toJson : Operand → Json
  | .number x => tagged "Numeric" (Json.float x)
  | .boolean b => tagged "Boolean" (Json.bool b)
  | .string s => tagged "Str" (ofString s)
  | .term t => tagged "PropertyRef" (ofFields t.fields)

def Comparison.toJson (c : Comparison) : Json :=
  ofFields (c.subject.fields ++ [("operator", c.relation.toJson), ("value", c.operand.toJson)])

def Connective.label : Connective → String
  | .and => "And"
  | .or => "Or"

def Condition.toJson : Condition → Json
  | .comparison c => tagged "Leaf" c.toJson
  | .group c => tagged "Group" c.toJson
  | .join op l r =>
    tagged "Binary" (ofFields [("left", l.toJson), ("op", ofString op.label), ("right", r.toJson)])

def Slot.toJson (s : Slot) : Json :=
  ofFields [("identifier", ofString s.name), ("constraint", ofOption Condition.toJson s.constraint),
    ("position", ofOption Position.toJson s.position)]

def Pattern.toJson (p : Pattern) : Json := ofFields [("elements", Json.array (p.map Slot.toJson))]

def Rule.toJson : Rule → Json
  | .simple p => tagged "Simple" p.toJson
  | .conditional c p q =>
    tagged "Conditional" (ofFields [("condition", c.toJson), ("then_sequence", p.toJson),
      ("else_sequence", ofOption Pattern.toJson q)])

def BoolOrdering.label : BoolOrdering → String
  | .reject => "Reject"
  | .falseBeforeTrue => "FalseBeforeTrue"

def Options.toJson (o : Options) : Json :=
  ofFields [("bool_ordering", ofString o.boolOrdering.label)]

end Lineup
