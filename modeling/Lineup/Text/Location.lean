/-!
# Places in a text

A place is given by its line, counted from one, and by the number of characters before it on that
line. Only a line feed ends a line.
-/

namespace Lineup.Text

structure Location where
  line : Nat
  column : Nat
deriving DecidableEq

namespace Location

/-- The start of every text. -/
def origin : Location := ⟨1, 0⟩

/-- The place one character further on. -/
def advance (p : Location) (c : Char) : Location :=
  if c = '\n' then ⟨p.line + 1, 0⟩ else ⟨p.line, p.column + 1⟩

/-- The place right after `s`. -/
def after (s : List Char) : Location := s.foldl advance origin

theorem after_concat (s : List Char) (c : Char) : after (s ++ [c]) = (after s).advance c := by
  simp [after]

theorem foldl_advance_line (p : Location) (s : List Char) :
    (s.foldl advance p).line = p.line + s.count '\n' := by
  induction s generalizing p with
  | nil => simp
  | cons c s ih =>
    by_cases h : c = '\n'
    · simp [ih, advance, h]
      omega
    · simp [ih, advance, h]

/-- The line of a place counts the line feeds before it. -/
theorem line_after (s : List Char) : (after s).line = 1 + s.count '\n' :=
  foldl_advance_line origin s

/-- The place at which `rest`, a tail of `s`, starts. -/
def ofRest (s rest : List Char) : Location := after (s.take (s.length - rest.length))

theorem ofRest_append (before rest : List Char) : ofRest (before ++ rest) rest = after before := by
  simp [ofRest]

end Location

end Lineup.Text
