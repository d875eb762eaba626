import Lineup.Binary64.Shortest

/-!
# Numbers as text

A finite number is written by its shortest digits, in full or with an exponent. How far numbers
are written in full, and what marks a whole one, is the choice of a `NumberStyle`.
-/

namespace Lineup

structure NumberStyle where
  tie : Binary64.Tie
  /-- The powers of ten of the first digit for which a number is written in full. -/
  full : Int → Bool
  /-- What follows a number in full that has no fraction. -/
  wholeMark : List Char
  /-- The sign of a positive exponent. -/
  plus : List Char

namespace NumberStyle

/-- Every number in full, and whole ones without a fraction. -/
def plain : NumberStyle := ⟨.up, fun _ => true, [], []⟩

/-- Whole numbers are told from integers, and long ones have an exponent. -/
def marked : NumberStyle := ⟨.up, fun p => -4 ≤ p && p < 16, ['.', '0'], []⟩

end NumberStyle

namespace Decimal

/-- Digits with a point before the place `point`, which may lie outside of them. -/
def inFull (wholeMark digits : List Char) (point : Int) : List Char :=
  if point ≤ 0 then '0' :: '.' :: List.replicate (-point).toNat '0' ++ digits
  else if digits.length ≤ point.toNat then
    digits ++ List.replicate (point.toNat - digits.length) '0' ++ wholeMark
  else digits.take point.toNat ++ '.' :: digits.drop point.toNat

def exponentText (plus : List Char) (p : Int) : List Char :=
  (if p < 0 then ['-'] else plus) ++ Nat.toDigits 10 p.natAbs

/-- One digit, the others after a point, and the power of ten of the first. -/
def withExponent (plus digits : List Char) (p : Int) : List Char :=
  digits.take 1 ++ (if digits.length ≤ 1 then [] else '.' :: digits.drop 1) ++
    'e' :: exponentText plus p

def chars (style : NumberStyle) (d : Decimal) : List Char :=
  let digits := Nat.toDigits 10 d.significand
  let point := digits.length + d.exponent
  if style.full (point - 1) then inFull style.wholeMark digits point
  else withExponent style.plus digits (point - 1)

end Decimal

namespace Binary64

def signChars (x : Binary64) : List Char := if x.negative then ['-'] else []

/-- The digits of a finite magnitude. -/
def finiteChars (style : NumberStyle) (m : Nat) : List Char :=
  if m = 0 then '0' :: style.wholeMark else (shortest style.tie m).chars style

def chars (style : NumberStyle) (x : Binary64) : List Char :=
  if x.isNaN then "NaN".toList
  else if x.isFinite then x.signChars ++ finiteChars style x.magnitude
  else x.signChars ++ "inf".toList

def text (style : NumberStyle) (x : Binary64) : String := String.ofList (x.chars style)

/-- Whether a number is finite and whole. -/
def isWhole (x : Binary64) : Bool := x.isFinite && units x.magnitude % unitsOfOne = 0

/-- Every digit of a whole number, and one place after the point. -/
def exactWholeText (x : Binary64) : String :=
  String.ofList (x.signChars ++ Nat.toDigits 10 (units x.magnitude / unitsOfOne) ++ ['.', '0'])

end Binary64

end Lineup
