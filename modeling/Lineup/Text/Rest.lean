/-!
# Rests of a text

A reader takes a text and leaves a rest, which is a tail of it. Readers of nested things call each
other on ever shorter rests, so they keep the fact that theirs is shorter.
-/

namespace Lineup.Text

/-- Says that `r` is what remains of `s` when at least one character of it has been read. -/
def Remains (r s : List Char) : Prop := r <:+ s ∧ r.length < s.length

namespace Remains

theorem of_cons {r s : List Char} (c : Char) (h : r <:+ s) : Remains r (c :: s) :=
  ⟨h.trans (List.suffix_cons c s), Nat.lt_succ_of_le h.length_le⟩

theorem of_cons_suffix {c : Char} {r s : List Char} (h : c :: r <:+ s) : Remains r s :=
  ⟨(List.suffix_cons c r).trans h, h.length_le⟩

theorem after {q r s : List Char} (h : Remains q r) (h' : r <:+ s) : Remains q s :=
  ⟨h.1.trans h', Nat.lt_of_lt_of_le h.2 h'.length_le⟩

theorem before {q r s : List Char} (h : q <:+ r) (h' : Remains r s) : Remains q s :=
  ⟨h.trans h'.1, Nat.lt_of_le_of_lt h.length_le h'.2⟩

theorem trans {q r s : List Char} (h : Remains q r) (h' : Remains r s) : Remains q s := h.after h'.1

end Remains

theorem remains_dropWhile {p : Char → Bool} {s : List Char} (h : s.takeWhile p ≠ []) :
    Remains (s.dropWhile p) s := by
  cases s with
  | nil => simp at h
  | cons c s =>
    by_cases hc : p c
    · simpa [hc] using Remains.of_cons c (List.dropWhile_suffix p)
    · simp [hc] at h

/-- What is left of `s` after reading. -/
abbrev Rest (s : List Char) := { r : List Char // Remains r s }

end Lineup.Text
