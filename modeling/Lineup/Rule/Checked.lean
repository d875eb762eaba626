import Lineup.Rule.Parse
import Lineup.Rule.Verdict

/-!
# Checked rules

A rule that is known to be valid, with the options under which hands are matched against it.
-/

namespace Lineup

/-- What can be chosen about matching. -/
structure Options where
  boolOrdering : BoolOrdering := .reject
deriving DecidableEq

structure CheckedRule where
  rule : Rule
  options : Options
  valid : rule.fault? = none

/-- Why a rule could not be loaded from a file. -/
inductive LoadError where
  | notFound
  /-- The file does not hold text. -/
  | invalidData
  | parse (e : ParseError)
deriving DecidableEq

namespace CheckedRule

def ofRule (r : Rule) : Except PositionFault CheckedRule :=
  match h : r.fault? with
  | none => .ok ⟨r, {}, h⟩
  | some f => .error f

def parse (text : String) : Except ParseError CheckedRule :=
  match h : Rule.parse text with
  | .ok r => .ok ⟨r, {}, Rule.fault?_of_parse h⟩
  | .error e => .error e

/-- Parses what a file holds, `none` standing for a file that does not exist. -/
def load : Option ByteArray → Except LoadError CheckedRule
  | none => .error .notFound
  | some bytes =>
    match String.fromUTF8? bytes with
    | none => .error .invalidData
    | some text => (parse text).mapError .parse

def withOptions (c : CheckedRule) (options : Options) : CheckedRule := { c with options }

def matched (c : CheckedRule) (hand : List Properties) : Bool :=
  c.rule.matched c.options.boolOrdering hand

/-- Matches each hand on its own. -/
def matchedEach (c : CheckedRule) (hands : List (List Properties)) : List Bool :=
  hands.map c.matched

def text (c : CheckedRule) : String := c.rule.text

end CheckedRule

end Lineup
