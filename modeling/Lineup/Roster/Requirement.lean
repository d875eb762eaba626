import Lineup.Item
import Lineup.Roster.Test

/-!
# Requirements

A requirement is put to each item of a sequence in turn: a test of one of its properties, or a
check under a label, which sees the whole sequence and may fail to answer.
-/

namespace Lineup

/-- A sequence of items and the index of the one that is looked at. -/
structure Surroundings where
  items : List Item
  index : Nat

namespace Surroundings

def previous? (x : Surroundings) : Option Item :=
  match x.index with
  | 0 => none
  | i + 1 => x.items[i]?

def next? (x : Surroundings) : Option Item := x.items[x.index + 1]?

end Surroundings

/-- A check answers for an item among others, or says why it cannot. -/
abbrev Check := Item → Surroundings → Except String Bool

inductive Requirement where
  | test (property : String) (t : Test) (e : Expected)
  | check (label : String) (run : Check)

namespace Requirement

/-- The property that is tested, or the label of a check. -/
def label : Requirement → String
  | test property _ _ => property
  | check label _ => label

def shown : Requirement → String
  | test property t e =>
    if t.isPresence then property ++ " " ++ t.text
    else property ++ " " ++ t.text ++ " " ++ e.shown
  | check label _ => label ++ "(..)"

def run (i : Item) (x : Surroundings) : Requirement → Except String Bool
  | test property t e => .ok (t.passes (i.get? property) e)
  | check _ run => run i x

end Requirement

end Lineup
