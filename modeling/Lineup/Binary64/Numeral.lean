import Lineup.Binary64.Decimal

/-!
# Text as numbers

A numeral is an optional sign followed by digits, of which there is at least one before or after
an optional point, and an optional exponent; or it is one of the words `inf`, `infinity` and `nan`
in any letter case, with an optional sign. It stands for the nearest number.
-/

namespace Lineup.Binary64

/-- Splits a sign off. -/
def splitSign : List Char → Bool × List Char
  | '-' :: s => (true, s)
  | '+' :: s => (false, s)
  | s => (false, s)

/-- Splits the digits off that `s` starts with. -/
def splitDigits (s : List Char) : List Char × List Char := s.span Char.isDigit

/-- An integer, whose sign is optional. -/
def signedDigits? (s : List Char) : Option Int :=
  let (negative, s) := splitSign s
  if s ≠ [] ∧ s.all Char.isDigit then
    let n : Int := Nat.ofDigitChars 10 s 0
    some (if negative then -n else n)
  else none

/-- The exponent after the digits of a numeral, zero where nothing follows. -/
def exponent? : List Char → Option Int
  | [] => some 0
  | 'e' :: s | 'E' :: s => signedDigits? s
  | _ => none

/-- Splits a point off and the digits after it. -/
def splitFraction : List Char → List Char × List Char
  | '.' :: s => splitDigits s
  | s => ([], s)

def decimal? (s : List Char) : Option Decimal :=
  let (whole, s) := splitDigits s
  let (fraction, s) := splitFraction s
  if whole = [] ∧ fraction = [] then none
  else (exponent? s).map (Decimal.ofDigits whole fraction)

/-- The magnitude that a word without a sign stands for. -/
def wordMagnitude? (s : List Char) : Option Nat :=
  match String.ofList (s.map Char.toLower) with
  | "inf" | "infinity" => some infinity
  | "nan" => some quietNaN
  | _ => none

/-- The number that a numeral stands for. -/
def ofChars? (s : List Char) : Option Binary64 :=
  let (negative, s) := splitSign s
  (((decimal? s).map Decimal.magnitude).or (wordMagnitude? s)).map (ofParts negative)

end Lineup.Binary64
