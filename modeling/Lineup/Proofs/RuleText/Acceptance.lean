import Lineup.Proofs.RuleText.Completeness
import Lineup.Proofs.RuleText.Tokenwise
import Lineup.Rule.Parse

/-!
# Which texts are accepted

Of the steps of parsing only two decide about a text: a text is accepted just if it derives a rule
and that rule is valid. A text that derives a rule is never empty and has no fault of characters.
-/

namespace Lineup

open Text (skipBlanks)
open RuleText Grammar

namespace RuleText

theorem Grammar.RulePhrase.word {r : Rule} {s rest : List Char} (h : RulePhrase s r rest) :
    ∃ w q, Word w s q := by
  cases h with
  | simple hp =>
    obtain ⟨n, q, hn⟩ := hp.name
    exact ⟨n, q, hn.1⟩
  | conditional hif _ _ _ | alternative hif _ _ _ _ _ => exact ⟨_, _, hif⟩

theorem skipBlanks_ne_nil_of_derives {s : List Char} {r : Rule} (h : Derives s r) :
    skipBlanks s ≠ [] := by
  obtain ⟨rest, hr, -⟩ := h
  obtain ⟨w, q, hw⟩ := hr.word
  obtain ⟨c, t, hs, -⟩ := hw.head
  rw [hs]
  exact nofun

end RuleText

theorem Rule.parse_of_derives {text : String} {r : Rule} (h : Derives text.toList r)
    (hr : r.fault? = none) : Rule.parse text = .ok r := by
  simp only [parse, if_neg (skipBlanks_ne_nil_of_derives h), charFault?_of_derives h,
    wholeRule_of_derives h, hr]

theorem Rule.derives_of_parse {text : String} {r : Rule} (h : Rule.parse text = .ok r) :
    Derives text.toList r := by
  simp only [parse] at h
  split at h
  · cases h
  split at h
  · cases h
  split at h
  · cases h
  rename_i r' hr'
  split at h
  · cases h
  obtain rfl := Except.ok.inj h
  exact derives_of_wholeRule hr'

theorem Rule.parse_eq_ok_iff {text : String} {r : Rule} :
    Rule.parse text = .ok r ↔ Derives text.toList r ∧ r.fault? = none :=
  ⟨fun h => ⟨derives_of_parse h, fault?_of_parse h⟩, fun h => parse_of_derives h.1 h.2⟩

end Lineup
