/-!
# Where reading gives up

Readers take a text and answer with what they read and the rest of the text. A failure names the
rest at which the reader gave up and what it asked for there.
-/

namespace Lineup.RuleText

/-- What can be asked for and not be there. -/
inductive Expectation where
  | sequence | element | condition | relation | value | positionIndex | closing | thenWord
deriving DecidableEq

def Expectation.description : Expectation → String
  | sequence => "sequence"
  | element => "element"
  | condition => "condition"
  | relation => "relational operator"
  | value => "value"
  | positionIndex => "position index"
  | closing => "')'"
  | thenWord => "'then'"

inductive Trouble where
  | expected (e : Expectation)
  /-- Nothing more can follow. -/
  | unexpected
  | openString
deriving DecidableEq

structure Failure where
  rest : List Char
  trouble : Trouble
deriving DecidableEq

/-- What a reader of `α` answers. -/
abbrev Reading (α : Type) := Except Failure (α × List Char)

end Lineup.RuleText
