import Lineup.Binary64.Text
import Lineup.Rule.Basic

/-!
# The text of a rule

Rules are written as they are read. A condition with two sides always stands in parentheses, and
the slots of a pattern are separated by commas. Numbers that are not finite, relative positions
and slots with both a condition and a position have a text too, but not one that reads back.
-/

namespace Lineup

def Position.text : Position → String
  | .absolute n => "@" ++ toString n.toInt
  | .relative n => "@" ++ (if 0 ≤ n.toInt then "+" else "") ++ toString n.toInt

def positionText : Option Position → String
  | some p => p.text
  | none => ""

def Term.text (t : Term) : String := t.name ++ positionText t.position

def Operand.text : Operand → String
  | .number x => x.text .plain
  | .boolean b => if b then "true" else "false"
  | .string s => "\"" ++ s ++ "\""
  | .term t => t.text

def Comparison.text (c : Comparison) : String :=
  c.subject.text ++ " " ++ c.relation.symbol ++ " " ++ c.operand.text

def Connective.word : Connective → String
  | .and => "and"
  | .or => "or"

def Condition.text : Condition → String
  | .comparison c => c.text
  | .group c => "(" ++ c.text ++ ")"
  | .join op l r => "(" ++ l.text ++ " " ++ op.word ++ " " ++ r.text ++ ")"

def Slot.text (s : Slot) : String :=
  s.name ++ (match s.constraint with
    | some c => "(" ++ c.text ++ ")"
    | none => "") ++ positionText s.position

def Pattern.text (p : Pattern) : String := ", ".intercalate (p.map Slot.text)

def Rule.text : Rule → String
  | .simple p => p.text
  | .conditional c p q =>
    "if " ++ c.text ++ " then " ++ p.text ++ match q with
      | some q => " else " ++ q.text
      | none => ""

end Lineup
