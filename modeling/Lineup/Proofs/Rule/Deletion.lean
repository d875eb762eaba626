import Lineup.Proofs.Rule.Conditions
import Mathlib.Data.List.NodupEquivFin
import Mathlib.Order.WellFounded

/-!
# Deleting slots

A slot that is deleted from a pattern is no longer asked for, and each slot behind it moves to an
earlier place. So what a slot without a position finds is still behind its place
(`Slot.found_of_le`), and a slot with a position finds the same at every place. Hence a hand that
matches a pattern matches what is left of the pattern when some of its slots are deleted
(`Pattern.matched_of_sublist`), and a rule can have slots deleted from either pattern
(`Rule.matched_of_thinned`).
-/

namespace Lineup

variable {o : BoolOrdering} {hand : List Properties}

/-- Says that `s` is `r` with slots deleted from its patterns. -/
inductive Rule.Thinned : Rule → Rule → Prop where
  | simple {p q : Pattern} : q.Sublist p → Thinned (.simple p) (.simple q)
  | conditional {c : Condition} {p p' : Pattern} {q q' : Option Pattern} : p'.Sublist p →
    Option.Rel List.Sublist q' q → Thinned (.conditional c p q) (.conditional c p' q')

/-- What a slot finds from a place on, it finds from any earlier place on. -/
theorem Slot.found_of_le {s : Slot} {i k : Nat} (h : i ≤ k) (hs : s.found o hand k) :
    s.found o hand i := by
  cases hpos : s.position with
  | none =>
    rw [found_of_position_none hpos] at hs ⊢
    obtain ⟨j, ⟨hkj, hj⟩, hfits⟩ := hs
    exact ⟨j, ⟨Nat.le_trans h hkj, hj⟩, hfits⟩
  | some pos =>
    simp only [found, hpos] at hs ⊢
    exact hs

/-- The place of a slot in what is left of a pattern is not behind its place in the pattern. -/
theorem Pattern.matched_of_sublist {p q : Pattern} (h : q.Sublist p) (hp : p.matched o hand) :
    q.matched o hand := by
  obtain ⟨place, hplace⟩ := List.sublist_iff_exists_orderEmbedding_getElem?_eq.1 h
  rw [matched_iff] at hp ⊢
  intro i s hs
  have hfound : s.found o hand (place i) := hp (place i) s ((hplace i).symm.trans hs)
  exact Slot.found_of_le place.strictMono.le_apply hfound

/-- **Patterns weaken when slots are deleted**: a rule that matches a hand still matches it when
slots are deleted from its pattern or, if it is conditional, from either of its patterns. -/
theorem Rule.matched_of_thinned {r s : Rule} (h : r.Thinned s) (o : BoolOrdering)
    (hand : List Properties) (hr : r.matched o hand) : s.matched o hand := by
  cases h with
  | simple hp => exact Pattern.matched_of_sublist hp hr
  | conditional hp hq =>
    cases hand with
    | nil => cases hr
    | cons first hand =>
      rw [matched] at hr ⊢
      split at hr
      · rename_i hc
        rw [if_pos hc]
        exact Pattern.matched_of_sublist hp hr
      · rename_i hc
        rw [if_neg hc]
        cases hq with
        | none => cases hr
        | some hq => exact Pattern.matched_of_sublist hq hr

/-- The queen moves to the place before the king, whom it compares itself with, and the king keeps
the index that it is looked for at. -/
theorem Rule.matched_of_thinned_queen :
    Rule.Thinned
        (.conditional (.comparison ⟨⟨"rank", none⟩, .gt, .number ⟨0x4024000000000000⟩⟩)
          [⟨"ace", none, none⟩]
          (some [⟨"ace", none, none⟩, ⟨"king", none, some (.absolute 1)⟩,
            ⟨"queen", some (.comparison ⟨⟨"rank", none⟩, .lt, .term ⟨"rank", some (.absolute 1)⟩⟩),
              none⟩]))
        (.conditional (.comparison ⟨⟨"rank", none⟩, .gt, .number ⟨0x4024000000000000⟩⟩) []
          (some [⟨"king", none, some (.absolute 1)⟩,
            ⟨"queen", some (.comparison ⟨⟨"rank", none⟩, .lt, .term ⟨"rank", some (.absolute 1)⟩⟩),
              none⟩])) ∧
      (Rule.conditional (.comparison ⟨⟨"rank", none⟩, .gt, .number ⟨0x4024000000000000⟩⟩)
        [⟨"ace", none, none⟩]
        (some [⟨"ace", none, none⟩, ⟨"king", none, some (.absolute 1)⟩,
          ⟨"queen", some (.comparison ⟨⟨"rank", none⟩, .lt, .term ⟨"rank", some (.absolute 1)⟩⟩),
            none⟩])).matched .reject
        [.ofList [("name", .string "ace"), ("rank", .int 1)],
          .ofList [("name", .string "king"), ("rank", .int 13)],
          .ofList [("name", .string "queen"), ("rank", .int 12)]] ∧
      (Rule.conditional (.comparison ⟨⟨"rank", none⟩, .gt, .number ⟨0x4024000000000000⟩⟩) []
        (some [⟨"king", none, some (.absolute 1)⟩,
          ⟨"queen", some (.comparison ⟨⟨"rank", none⟩, .lt, .term ⟨"rank", some (.absolute 1)⟩⟩),
            none⟩])).matched .reject
        [.ofList [("name", .string "ace"), ("rank", .int 1)],
          .ofList [("name", .string "king"), ("rank", .int 13)],
          .ofList [("name", .string "queen"), ("rank", .int 12)]] := by
  have hthinned : Rule.Thinned
      (.conditional (.comparison ⟨⟨"rank", none⟩, .gt, .number ⟨0x4024000000000000⟩⟩)
        [⟨"ace", none, none⟩]
        (some [⟨"ace", none, none⟩, ⟨"king", none, some (.absolute 1)⟩,
          ⟨"queen", some (.comparison ⟨⟨"rank", none⟩, .lt, .term ⟨"rank", some (.absolute 1)⟩⟩),
            none⟩]))
      (.conditional (.comparison ⟨⟨"rank", none⟩, .gt, .number ⟨0x4024000000000000⟩⟩) []
        (some [⟨"king", none, some (.absolute 1)⟩,
          ⟨"queen", some (.comparison ⟨⟨"rank", none⟩, .lt, .term ⟨"rank", some (.absolute 1)⟩⟩),
            none⟩])) :=
    .conditional (List.nil_sublist _) (.some (List.sublist_cons_self _ _))
  have hmatched : (Rule.conditional
      (.comparison ⟨⟨"rank", none⟩, .gt, .number ⟨0x4024000000000000⟩⟩) [⟨"ace", none, none⟩]
      (some [⟨"ace", none, none⟩, ⟨"king", none, some (.absolute 1)⟩,
        ⟨"queen", some (.comparison ⟨⟨"rank", none⟩, .lt, .term ⟨"rank", some (.absolute 1)⟩⟩),
          none⟩])).matched .reject
      [.ofList [("name", .string "ace"), ("rank", .int 1)],
        .ofList [("name", .string "king"), ("rank", .int 13)],
        .ofList [("name", .string "queen"), ("rank", .int 12)]] := by
    decide +kernel
  exact ⟨hthinned, hmatched, Rule.matched_of_thinned hthinned .reject _ hmatched⟩

end Lineup
