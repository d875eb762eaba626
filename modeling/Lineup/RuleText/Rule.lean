import Lineup.RuleText.Pattern

/-!
# Rules

A rule is a pattern, or the keyword `if` with a condition, `then` with a pattern and possibly
`else` with another one. Blanks may stand around it and nothing else.
-/

namespace Lineup.RuleText

open Text (skipBlanks)

/-- Reads the pattern after `else`, if there is one. -/
def alternative (s : List Char) : Reading (Option Pattern) :=
  match keyword? "else" (skipBlanks s) with
  | none => .ok (none, s)
  | some t =>
    match pattern t with
    | .error e => .error e
    | .ok (q, r) => .ok (some q, r)

/-- Reads what follows the keyword `if`. -/
def conditionalTail (s : List Char) : Reading Rule :=
  match condition s with
  | .error e => .error e
  | .ok (c, r) =>
    match keyword? "then" (skipBlanks r.1) with
    | none => .error ⟨skipBlanks r.1, .expected .thenWord⟩
    | some t =>
      match pattern t with
      | .error e => .error e
      | .ok (p, r') =>
        match alternative r' with
        | .error e => .error e
        | .ok (q, r'') => .ok (.conditional c p q, r'')

def rule (s : List Char) : Reading Rule :=
  match keyword? "if" (skipBlanks s) with
  | some t => conditionalTail t
  | none =>
    match pattern s with
    | .error e => .error e
    | .ok (p, r) => .ok (.simple p, r)

/-- Reads a text that is a rule from end to end. -/
def wholeRule (s : List Char) : Except Failure Rule :=
  match rule s with
  | .error e => .error e
  | .ok (r, rest) =>
    if skipBlanks rest = [] then .ok r else .error ⟨skipBlanks rest, .unexpected⟩

end Lineup.RuleText
