import Lineup.Text.Rest

/-!
# Blank characters

The blanks are the characters with the Unicode property `White_Space`. They separate words and are
trimmed from around a number.
-/

namespace Lineup.Text

/-- The ranges of code points with the property `White_Space`. -/
def blankRanges : List (Nat × Nat) :=
  [(0x09, 0x0d), (0x20, 0x20), (0x85, 0x85), (0xa0, 0xa0), (0x1680, 0x1680), (0x2000, 0x200a),
    (0x2028, 0x2029), (0x202f, 0x202f), (0x205f, 0x205f), (0x3000, 0x3000)]

def isBlank (c : Char) : Bool :=
  blankRanges.any fun (low, high) => low ≤ c.toNat && c.toNat ≤ high

/-- The text without the blanks it starts with. -/
def skipBlanks (s : List Char) : List Char := s.dropWhile isBlank

/-- The text without the blanks at either end. -/
def trim (s : List Char) : List Char := (skipBlanks (skipBlanks s).reverse).reverse

theorem skipBlanks_suffix (s : List Char) : skipBlanks s <:+ s := List.dropWhile_suffix _

theorem Remains.skipBlanks {r s : List Char} (h : Remains r (skipBlanks s)) : Remains r s :=
  h.after (skipBlanks_suffix s)

theorem remains_of_skipBlanks {c : Char} {r s : List Char} (h : skipBlanks s = c :: r) :
    Remains r s :=
  .of_cons_suffix (h ▸ skipBlanks_suffix s)

/-- What is left after skipping blanks does not start with one. -/
theorem not_isBlank_of_skipBlanks_eq_cons {s r : List Char} {c : Char}
    (h : skipBlanks s = c :: r) : isBlank c = false := by
  induction s with
  | nil => simp [skipBlanks] at h
  | cons a s ih =>
    by_cases ha : isBlank a
    · exact ih (by simpa [skipBlanks, List.dropWhile_cons, ha] using h)
    · have : a = c := by simp [skipBlanks, ha] at h; exact h.1
      simpa [this] using ha

@[simp] theorem skipBlanks_idem (s : List Char) : skipBlanks (skipBlanks s) = skipBlanks s := by
  cases h : skipBlanks s with
  | nil => rfl
  | cons c r => simp [skipBlanks, not_isBlank_of_skipBlanks_eq_cons h]

end Lineup.Text
