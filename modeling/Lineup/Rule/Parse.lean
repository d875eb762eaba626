import Lineup.RuleText.ParseError
import Lineup.RuleText.Rule

/-!
# Parsing rules

A text is parsed in four steps, of which the first that fails is reported: it must not be empty,
its characters must be admitted, it must read as a rule, and the rule must be valid.
-/

namespace Lineup

open Text (skipBlanks)
open RuleText

/-- Parses a text as a valid rule. -/
def Rule.parse (text : String) : Except ParseError Rule :=
  let s := text.toList
  if skipBlanks s = [] then .error ⟨.origin, .empty⟩
  else
    match charFault? s with
    | some (f, rest) => .error (.ofCharFault s f rest)
    | none =>
      match wholeRule s with
      | .error f => .error (.ofFailure s f)
      | .ok r =>
        match r.fault? with
        | some f => .error (.ofPosition f)
        | none => .ok r

/-- Parsing yields valid rules only. -/
theorem Rule.fault?_of_parse {text : String} {r : Rule} (h : Rule.parse text = .ok r) :
    r.fault? = none := by
  simp only [Rule.parse] at h
  split at h
  · cases h
  · split at h
    · cases h
    · split at h
      · cases h
      · split at h
        · cases h
        · cases h; assumption

end Lineup
