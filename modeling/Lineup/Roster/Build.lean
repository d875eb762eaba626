import Lineup.Roster.Requirement

/-!
# Building rosters

A roster asks for items of given names in a given order, each of which meets every requirement. It
is built from a draft, which takes any requirement; building reports the first one whose test does
not go with what it is to compare with.
-/

namespace Lineup

inductive BuildError where
  | unknownTest (text : String)
  | listNeeded (property : String) (t : Test)
  | oneNeeded (property : String) (t : Test)
  | nothingNeeded (property : String) (t : Test)
deriving DecidableEq

namespace BuildError

def subject (property : String) (t : Test) : String :=
  "operator '" ++ t.text ++ "' on property '" ++ property ++ "'"

def message : BuildError → String
  | unknownTest text => "unknown condition operator '" ++ text ++ "'"
  | listNeeded property t => subject property t ++ " requires a list of values"
  | oneNeeded property t => subject property t ++ " requires a single value"
  | nothingNeeded property t => subject property t ++ " takes no value"

end BuildError

def Test.parse (text : String) : Except BuildError Test :=
  match Test.all.find? (·.text = text) with
  | some t => .ok t
  | none => .error (.unknownTest text)

def Requirement.fault? : Requirement → Option BuildError
  | test property t e =>
    if t.admits e then none
    else if t.isMembership then some (.listNeeded property t)
    else if t.isPresence then some (.nothingNeeded property t)
    else some (.oneNeeded property t)
  | check _ _ => none

/-- A roster in the making. Whether requirements that are met are logged makes no difference to
what a roster answers. -/
structure Draft where
  requirements : List Requirement
  names : List String
  verbose : Bool

structure Roster where
  requirements : List Requirement
  names : List String
  verbose : Bool
  sound : requirements.findSome? Requirement.fault? = none

namespace Draft

def empty : Draft := ⟨[], [], false⟩

/-- Adds a requirement after those that are there. -/
def require (d : Draft) (r : Requirement) : Draft :=
  { d with requirements := d.requirements ++ [r] }

/-- Sets the required names, in place of those that were there. -/
def setNames (d : Draft) (names : List String) : Draft := { d with names }

def setVerbose (d : Draft) (verbose : Bool) : Draft := { d with verbose }

def build (d : Draft) : Except BuildError Roster :=
  match h : d.requirements.findSome? Requirement.fault? with
  | none => .ok ⟨d.requirements, d.names, d.verbose, h⟩
  | some e => .error e

end Draft

/-- The form in which a roster is shown to a reader. -/
def Roster.shown (r : Roster) : String :=
  "SequenceRule(" ++ toString r.requirements.length ++ " conditions, sequence [" ++
    ", ".intercalate r.names ++ "])"

end Lineup
