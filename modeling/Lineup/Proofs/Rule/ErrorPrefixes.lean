import Lineup.Proofs.Rule.Errors
import Lineup.Proofs.RuleText.Prefixes
import Mathlib.Data.List.DropRight

/-!
# What stands before an error

An error of reading is not reported further on than at the first problem: what stands before its
location, without blanks at the end, is how some text starts that reads as a rule
(`Rule.parse_error_viable`).
-/

namespace Lineup

open Text (skipBlanks Blanks Location isBlank stops_nil)
open RuleText Grammar

theorem Text.rdropWhile_append_blanks {u w : List Char} (hw : ∀ c ∈ w, isBlank c) :
    (u ++ w).rdropWhile isBlank = u.rdropWhile isBlank := by
  have hreverse : ∀ c ∈ w.reverse, isBlank c := fun c hc => hw c (List.mem_reverse.1 hc)
  rw [List.rdropWhile, List.reverse_append, List.dropWhile_append_of_pos hreverse, List.rdropWhile]

/-- Says that a text, but for the blanks at its end, is how a text starts that reads as a rule. -/
def RuleText.Viable (before : List Char) : Prop :=
  ∃ s r, before.rdropWhile isBlank <+: s ∧ wholeRule s = .ok r

namespace Rule

theorem viable_nil : Viable [] := by
  obtain ⟨w, hw⟩ := Completable.pattern
  obtain ⟨-, p, hp⟩ := hw [] (stops_nil _)
  exact ⟨_, .simple p, List.nil_prefix, wholeRule_of_derives ⟨[], .simple hp, .refl []⟩⟩

theorem viable_of_wholeRule_error {s before : List Char} {f : Failure}
    (h : wholeRule s = .error f) (hs : s = before ++ skipBlanks f.rest) : Viable before := by
  obtain ⟨u, t, v, r, rfl, ht, hr⟩ := derives_of_wholeRule_error h
  obtain ⟨w, hw, hrest⟩ := Blanks.skip t
  rw [ht.skipBlanks_eq] at hrest
  rw [hrest, ← List.append_assoc] at hs
  refine ⟨u ++ v, r, ?_, wholeRule_of_derives hr⟩
  rw [← List.append_cancel_right hs, Text.rdropWhile_append_blanks hw]
  exact (List.rdropWhile_prefix isBlank u).trans (List.prefix_append u v)

/-- An error of reading has the location of a place behind something viable. -/
theorem exists_place_of_wholeRule_error {text : String} {f : Failure}
    (hchars : charFault? text.toList = none) (hf : wholeRule text.toList = .error f) :
    ∃ e rest, Rule.parse text = .error e ∧ e.location.IsAt text.toList rest ∧
      ∀ before, text.toList = before ++ rest → Viable before := by
  by_cases hblank : skipBlanks text.toList = []
  · refine ⟨⟨.origin, .empty⟩, text.toList, ?_, Location.isAt_after [] text.toList, ?_⟩
    · simp only [parse, if_pos hblank]
    · intro before hs
      rw [List.self_eq_append_left.1 hs]
      exact viable_nil
  · have hreach := (reaches_of_wholeRule hchars hf).trans (.skipBlanks f.rest)
    refine ⟨.ofFailure text.toList f, skipBlanks f.rest, ?_, Location.isAt_ofRest hreach.suffix, ?_⟩
    · simp only [parse, if_neg hblank, hchars, hf]
    · exact fun before hs => viable_of_wholeRule_error hf hs

/-- **No error of reading is past the first problem**: a text without a fault of characters that
does not read as a rule is rejected with the location of a place in it, and what stands before the
place, but for the blanks at its end, is how a text starts that reads as a rule. -/
theorem parse_error_viable {text : String} (hchars : charFault? text.toList = none)
    (hread : ∀ r, wholeRule text.toList ≠ .ok r) :
    ∃ e, Rule.parse text = .error e ∧ (∃ rest, e.location.IsAt text.toList rest) ∧
      ∀ before rest, text.toList = before ++ rest → e.location.IsAt text.toList rest →
        Viable before := by
  cases hf : wholeRule text.toList with
  | ok r => exact absurd hf (hread r)
  | error f =>
    obtain ⟨e, rest, he, hat, hviable⟩ := exists_place_of_wholeRule_error hchars hf
    refine ⟨e, he, ⟨rest, hat⟩, fun before rest' hs hat' => hviable before ?_⟩
    rwa [hat.unique hat']

/-- Behind a minus sign the digits of an index are missing, and blanks stand before what is there
instead of them. -/
theorem parse_error_viable_minus :
    Rule.parse "x@- 1" = .error ⟨⟨1, 4⟩, .mismatched ['1'] .positionIndex⟩ ∧
      ∃ s r, "x@-".toList <+: s ∧ wholeRule s = .ok r := by
  have hread : ∀ r, wholeRule "x@- 1".toList ≠ .ok r := fun r => by
    have hf : wholeRule "x@- 1".toList = .error ⟨" 1".toList, .expected .positionIndex⟩ := by rfl
    rw [hf]
    exact nofun
  have herror : Rule.parse "x@- 1" = .error ⟨⟨1, 4⟩, .mismatched ['1'] .positionIndex⟩ := by rfl
  obtain ⟨e, he, -, hviable⟩ := parse_error_viable (by decide) hread
  obtain rfl := Except.error.inj (herror.symm.trans he)
  exact ⟨herror, hviable "x@- ".toList ['1'] rfl (Location.isAt_after "x@- ".toList ['1'])⟩

end Rule

end Lineup
