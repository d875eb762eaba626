import Lineup.Json.Compact.Lexeme
import Lineup.Json.Compact.Text

/-!
# Strings of JSON

A string reads back as what was written, whatever it holds (`stringTail?_stringContent`): each of
its characters is written as one unit, be it as itself, by a letter or by its number.
-/

namespace Lineup.Json.Compact

theorem unitOfHex?_hexDigit : ∀ n < 0x20,
    unitOfHex? '0' '0' (hexDigit (n / 16)) (hexDigit n) = some (.char (Char.ofNat n)) := by
  decide

theorem units?_letter {e c : Char} (he : e ≠ 'u') (hc : escape? e = some c) (s : List Char) :
    units? ('\\' :: e :: s) = (units? s).map fun (us, r) => (.char c :: us, r) := by
  rw [units?, hc]
  · cases units? s <;> rfl
  · exact fun _ _ _ _ _ h _ => he h

theorem units?_number {a b c d x : Char} (h : unitOfHex? a b c d = some (.char x))
    (s : List Char) : units? ('\\' :: 'u' :: a :: b :: c :: d :: s) =
      (units? s).map fun (us, r) => (.char x :: us, r) := by
  rw [units?, h]
  cases units? s <;> rfl

theorem units?_self {c : Char} (hquote : c ≠ '"') (hbackslash : c ≠ '\\') (hc : 0x20 ≤ c.toNat)
    (s : List Char) : units? (c :: s) = (units? s).map fun (us, r) => (.char c :: us, r) := by
  have hplain : ¬ (c.toNat < 0x20 ∨ c = '\\') := not_or.2 ⟨Nat.not_lt.2 hc, hbackslash⟩
  rw [units?, if_neg hplain]
  · cases units? s <;> rfl
  · exact fun h => hquote h
  · exact fun _ _ _ _ _ h _ => hbackslash h
  · exact fun _ _ h _ => hbackslash h

/-- A character is read as one unit, and what follows it is read as before. -/
theorem units?_escaped (c : Char) (s : List Char) :
    units? (escaped c ++ s) = (units? s).map fun (us, r) => (.char c :: us, r) := by
  unfold escaped
  split
  case h_8 hquote hbackslash _ _ _ _ _ =>
    split
    · rename_i hc
      have hunit := unitOfHex?_hexDigit c.toNat hc
      rw [Char.ofNat_toNat] at hunit
      exact units?_number hunit s
    · rename_i hc
      exact units?_self hquote hbackslash (Nat.not_lt.1 hc) s
  all_goals exact units?_letter (by decide) rfl s

theorem units?_flatMap_escaped (s r : List Char) :
    units? (s.flatMap escaped ++ '"' :: r) = some (s.map .char, r) := by
  induction s with
  | nil => rfl
  | cons c s ih => rw [List.flatMap_cons, List.append_assoc, units?_escaped, ih]; rfl

theorem charsOfUnits?_map_char (s : List Char) : charsOfUnits? (s.map .char) = some s := by
  induction s with
  | nil => rfl
  | cons c s ih => rw [List.map_cons, charsOfUnits?, ih]; rfl

/-- A string reads back behind its opening quote. -/
theorem stringTail?_stringContent (s : Option String) (r : List Char) :
    stringTail? (stringContent s ++ '"' :: r) = some (s, r) := by
  cases s with
  | none => rfl
  | some s =>
    rw [stringContent, stringTail?, units?_flatMap_escaped]
    simp [charsOfUnits?_map_char]

end Lineup.Json.Compact
