import Lineup.RuleText.Lexeme

/-!
# Conditions

A condition is a chain of conditions joined by `or`, each of which is a chain joined by `and`,
each of which is a comparison or a condition in parentheses. Chains lean to the left and
parentheses leave no mark.
-/

namespace Lineup.RuleText

open Text (skipBlanks Remains Rest remains_of_skipBlanks)

mutual

/-- Reads a chain of conditions joined by `op`. -/
def chain (op : Connective) (s : List Char) : Except Failure (Condition × Rest s) :=
  match link op s with
  | .error e => .error e
  | .ok (c, r) =>
    match moreLinks op c r.1 with
    | .error e => .error e
    | .ok (d, r') => .ok (d, ⟨r'.1, r.2.before r'.2⟩)
termination_by (s.length, match op with | .and => 3 | .or => 5)
decreasing_by
  · exact .right _ (by cases op <;> decide)
  · exact .left _ _ r.2.2

/-- Reads one condition of a chain. -/
def link (op : Connective) (s : List Char) : Except Failure (Condition × Rest s) :=
  match op with
  | .or => chain .and s
  | .and => primary s
termination_by (s.length, match op with | .and => 2 | .or => 4)

/-- Joins what `op` joins in the rest of a chain to the condition read so far. -/
def moreLinks (op : Connective) (left : Condition) (s : List Char) :
    Except Failure (Condition × { r : List Char // r <:+ s }) :=
  match h : keyword? op.word (skipBlanks s) with
  | none => .ok (left, ⟨s, List.suffix_refl s⟩)
  | some r =>
    have hr : Remains r s := (remains_keyword? h).skipBlanks
    match link op r with
    | .error e => .error e
    | .ok (c, r') =>
      match moreLinks op (.join op left c) r'.1 with
      | .error e => .error e
      | .ok (d, r'') => .ok (d, ⟨r''.1, (r''.2.trans r'.2.1).trans hr.1⟩)
termination_by (s.length, 0)
decreasing_by
  · exact .left _ _ hr.2
  · exact .left _ _ (r'.2.trans hr).2

/-- Reads a comparison or a condition in parentheses. -/
def primary (s : List Char) : Except Failure (Condition × Rest s) :=
  match h : skipBlanks s with
  | '(' :: t =>
    have ht : Remains t s := remains_of_skipBlanks h
    match chain .or t with
    | .error e => .error e
    | .ok (c, r) =>
      match h' : skipBlanks r.1 with
      | ')' :: r' => .ok (c, ⟨r', ((remains_of_skipBlanks h').trans r.2).trans ht⟩)
      | r' => .error ⟨r', .expected .closing⟩
  | t =>
    match h' : comparison t with
    | .error e => .error e
    | .ok (c, r) => .ok (.comparison c, ⟨r, Remains.skipBlanks (h ▸ remains_comparison h')⟩)
termination_by (s.length, 1)
decreasing_by
  exact .left _ _ ht.2

end

/-- Reads a condition. -/
def condition (s : List Char) : Except Failure (Condition × Rest s) := chain .or s

end Lineup.RuleText
