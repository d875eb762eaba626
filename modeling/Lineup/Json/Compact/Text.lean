import Lineup.Binary64.Text
import Lineup.Json.Tree

/-!
# Trees as text

The compact library writes no blanks. In strings only quotes, backslashes and control characters
are escaped, the latter by a letter where there is one.
-/

namespace Lineup.Json.Compact

/-- Whole floats are told from integers, and a positive exponent has a sign. -/
def floatStyle : NumberStyle := ⟨.even, fun p => -5 ≤ p && p < 16, ['.', '0'], ['+']⟩

def floatChars (x : Binary64) : List Char :=
  if x.isFinite then x.chars floatStyle else "null".toList

def hexDigit (n : Nat) : Char := Nat.digitChar (n % 16)

def escaped (c : Char) : List Char :=
  match c with
  | '"' => ['\\', '"']
  | '\\' => ['\\', '\\']
  | '\x08' => ['\\', 'b']
  | '\t' => ['\\', 't']
  | '\n' => ['\\', 'n']
  | '\x0c' => ['\\', 'f']
  | '\r' => ['\\', 'r']
  | c =>
    if c.toNat < 0x20 then ['\\', 'u', '0', '0', hexDigit (c.toNat / 16), hexDigit c.toNat] else [c]

/-- What is written between quotes. For a string that is no text it is half of a surrogate pair. -/
def stringContent : Option String → List Char
  | some s => s.toList.flatMap escaped
  | none => "\\ud800".toList

def stringChars (s : Option String) : List Char := '"' :: stringContent s ++ ['"']

mutual

def chars : Json → List Char
  | null => "null".toList
  | bool b => if b then "true".toList else "false".toList
  | int n => (toString n.toInt).toList
  | float x => floatChars x
  | string s => stringChars s
  | array l => '[' :: elementChars l ++ [']']
  | object l => '\x7b' :: memberChars l ++ ['\x7d']

def elementChars : List Json → List Char
  | [] => []
  | [j] => chars j
  | j :: l => chars j ++ ',' :: elementChars l

def memberChars : List (Option String × Json) → List Char
  | [] => []
  | [(k, j)] => stringChars k ++ ':' :: chars j
  | (k, j) :: l => stringChars k ++ ':' :: chars j ++ ',' :: memberChars l

end

def text (j : Json) : String := String.ofList (chars j)

end Lineup.Json.Compact
