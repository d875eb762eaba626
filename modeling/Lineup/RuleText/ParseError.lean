import Lineup.Rule.Validity
import Lineup.RuleText.Characters
import Lineup.RuleText.Lexeme
import Lineup.Text.Location

/-!
# Errors of parsing

What can be wrong with a text that is to be a rule, where it is, and how it is said. Errors of
reading are located at the token that follows the place where the reader gave up; a text that is
empty or a rule that is not valid has no such place and is reported at the start.
-/

namespace Lineup

open Text (Location skipBlanks)
open RuleText

namespace RuleText

/-- The token that a text starts with; nothing for an empty text. -/
def token : List Char → List Char
  | [] => []
  | '"' :: s =>
    '"' :: s.takeWhile (· ≠ '"') ++ (s.dropWhile (· ≠ '"')).take 1
  | '!' :: '=' :: _ => ['!', '=']
  | '<' :: '=' :: _ => ['<', '=']
  | '>' :: '=' :: _ => ['>', '=']
  | '-' :: '>' :: _ => ['-', '>']
  | c :: s =>
    if isWordPart c then c :: s.takeWhile (fun d => isWordPart d || d = '.') else [c]

end RuleText

inductive ParseFault where
  | empty
  | openString
  | unrecognized (c : Char)
  /-- A token other than the one expected; an empty one stands for the end of the text. -/
  | mismatched (token : List Char) (e : Expectation)
  | unexpected (token : List Char)
  | position (f : PositionFault)
deriving DecidableEq

structure ParseError where
  location : Location
  fault : ParseFault
deriving DecidableEq

namespace ParseFault

def tokenText (t : List Char) : String := if t = [] then "<EOF>" else String.ofList t

def message : ParseFault → String
  | empty => "Empty rule"
  | openString => "Unterminated string"
  | unrecognized c => "Unrecognized character '" ++ c.toString ++ "'"
  | mismatched t e => "mismatched input '" ++ tokenText t ++ "' expecting " ++ e.description
  | unexpected t => "Unexpected token '" ++ tokenText t ++ "'"
  | position f => f.message

end ParseFault

namespace ParseError

/-- The message with its place before it. -/
def message (e : ParseError) : String :=
  "line " ++ toString e.location.line ++ ":" ++ toString e.location.column ++ " " ++ e.fault.message

def ofCharFault (s : List Char) (f : CharFault) (rest : List Char) : ParseError :=
  ⟨.ofRest s rest, match f with
    | .openString => .openString
    | .unrecognized c => .unrecognized c⟩

/-- A failure is reported at the token that follows it, behind blanks. -/
def ofFailure (s : List Char) (f : Failure) : ParseError :=
  let rest := skipBlanks f.rest
  ⟨.ofRest s rest, match f.trouble with
    | .expected e => .mismatched (token rest) e
    | .unexpected => .unexpected (token rest)
    | .openString => .openString⟩

def ofPosition (f : PositionFault) : ParseError := ⟨.origin, .position f⟩

end ParseError

end Lineup
