import Lineup.Text.Unprintable

/-!
# Quoted text

A text between double quotes, in which a quote, a backslash and every character without a shape of
its own are escaped. Apostrophes stand for themselves.
-/

namespace Lineup.Text

/-- The hexadecimal digits of a code point, in lower case and without leading zeros. -/
def hexDigits (c : Char) : List Char := Nat.toDigits 16 c.toNat

def escaped (c : Char) : List Char :=
  match c with
  | '\x00' => ['\\', '0']
  | '\t' => ['\\', 't']
  | '\n' => ['\\', 'n']
  | '\r' => ['\\', 'r']
  | '"' => ['\\', '"']
  | '\\' => ['\\', '\\']
  | c => if isUnprintable c then '\\' :: 'u' :: '\x7b' :: hexDigits c ++ ['\x7d'] else [c]

def quoted (s : String) : String :=
  String.ofList ('"' :: s.toList.flatMap escaped ++ ['"'])

/-- Quoted texts between brackets. -/
def quotedList (l : List String) : String :=
  "[" ++ ", ".intercalate (l.map quoted) ++ "]"

end Lineup.Text
