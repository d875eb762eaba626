import Lineup.Text.Blank

/-!
# The characters of a text

Before a text is read its characters are looked over: strings have to be closed on the line on
which they are opened, and outside of them only characters that some token can start with may
stand. The first fault is reported, whatever may be wrong with the text before it.
-/

namespace Lineup.RuleText

open Text (isBlank)

inductive CharFault where
  | openString
  | unrecognized (c : Char)
deriving DecidableEq

/-- Whether a character can stand outside of strings. -/
def isTokenChar (c : Char) : Bool :=
  isBlank c || c.isAlphanum || c ∈ ['_', '(', ')', ',', '@', '-', '<', '>', '=', '!', '.']

/-- The first fault of a text and the tail at which it stands. For an open string that is where it
starts, which `opened` holds within a string. -/
def charFaultFrom? (opened : Option (List Char)) : List Char → Option (CharFault × List Char)
  | [] => opened.map (CharFault.openString, ·)
  | c :: s =>
    match opened with
    | some t =>
      if c = '"' then charFaultFrom? none s
      else if c = '\n' ∨ c = '\r' then some (.openString, t)
      else charFaultFrom? (some t) s
    | none =>
      if c = '"' then charFaultFrom? (some (c :: s)) s
      else if isTokenChar c then charFaultFrom? none s
      else some (.unrecognized c, c :: s)

def charFault? (s : List Char) : Option (CharFault × List Char) := charFaultFrom? none s

end Lineup.RuleText
