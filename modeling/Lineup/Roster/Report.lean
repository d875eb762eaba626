import Lineup.Roster.Build
import Lineup.Text.Quoted

/-!
# Reports

A report lists every reason why a sequence of items is not what a roster asks for. The names are
looked at first; only where they agree are the requirements put to the items, all of them to one
item before the next, and none is left out because another one was not met.
-/

namespace Lineup

inductive Shortfall where
  /-- There are no items and no names to ask for. -/
  | nothingToCheck
  | misnamed (expected got : List String)
  | unmet (item requirement : String)
  /-- A check gave no answer. -/
  | raised (item label error : String)
deriving DecidableEq

def Shortfall.message : Shortfall → String
  | .nothingToCheck => "empty item sequence with no name constraints"
  | .misnamed expected got =>
    "sequence order mismatch: expected " ++ Text.quotedList expected ++ ", got " ++
      Text.quotedList got
  | .unmet item requirement => item ++ ": " ++ requirement
  | .raised item label error => item ++ ": " ++ label ++ " raised: " ++ error

structure Report where
  matched : Bool
  shortfalls : List Shortfall
deriving DecidableEq

namespace Report

/-- The report where there is nothing to hold against the requirements. -/
def failed (s : Shortfall) : Report := ⟨false, [s]⟩

/-- The report of all shortfalls, of which there may be none. -/
def ofShortfalls (l : List Shortfall) : Report := ⟨l.isEmpty, l⟩

def messages (r : Report) : List String := r.shortfalls.map Shortfall.message

def shown (r : Report) : String :=
  if r.matched then "matched" else "failed: [" ++ "; ".intercalate r.messages ++ "]"

end Report

/-- How an item falls short of a requirement, if it does. -/
def Requirement.shortfall? (r : Requirement) (i : Item) (x : Surroundings) : Option Shortfall :=
  match r.run i x with
  | .ok true => none
  | .ok false => some (.unmet i.name r.shown)
  | .error e => some (.raised i.name r.label e)

namespace Roster

def report (r : Roster) (items : List Item) : Report :=
  if items.isEmpty && r.names.isEmpty then .failed .nothingToCheck
  else if items.map Item.name = r.names then
    .ofShortfalls <| items.zipIdx.flatMap fun (i, n) =>
      r.requirements.filterMap (·.shortfall? i ⟨items, n⟩)
  else .failed (.misnamed r.names (items.map Item.name))

def matched (r : Roster) (items : List Item) : Bool := (r.report items).matched

/-- Matches each sequence on its own. -/
def matchedEach (r : Roster) (sequences : List (List Item)) : List Bool := sequences.map r.matched

end Roster

end Lineup
