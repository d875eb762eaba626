import Lineup.Proofs.Rule.Extension
import Lineup.Proofs.Rule.Sides

/-!
# Orders of truth values

To order truth values is to let comparisons with a truth value hold that did not hold before, and
nothing else. So a condition goes on to hold (`Condition.holds_falseBeforeTrue`) and a rule goes on
to match unless its condition begins to hold, which moves it to its other pattern. A condition that
does not ask how a property and a truth value are ordered cannot tell the difference
(`Condition.holds_reject_eq`), whatever truth values it finds in the hand.
-/

namespace Lineup

/-! ### Comparisons -/

/-- Says that a comparison asks how a property and a truth value are ordered. -/
def Comparison.OrdersBoolean (c : Comparison) : Prop :=
  c.relation ∈ [Relation.lt, .gt, .le, .ge] ∧ ∃ b, c.operand = .boolean b

theorem Operand.allows_falseBeforeTrue (r : Relation) (v : Operand) :
    v.allows .falseBeforeTrue r := by
  cases v with
  | boolean b => exact Bool.or_true _
  | number | string | term => rfl

/-- Where no relation is ruled out, the order of truth values is not asked for. -/
theorem Comparison.allows_reject {c : Comparison} (h : ¬ c.OrdersBoolean) :
    c.operand.allows .reject c.relation := by
  obtain ⟨t, r, v⟩ := c
  cases v with
  | boolean b =>
    cases r with
    | eq | ne => rfl
    | lt | gt | le | ge => exact absurd ⟨by simp, b, rfl⟩ h
  | number | string | term => rfl

theorem Comparison.holds_falseBeforeTrue {c : Comparison} {x : Context} (h : c.holds .reject x) :
    c.holds .falseBeforeTrue x := by
  rw [holds_eq] at h ⊢
  obtain ⟨-, hsides⟩ := Bool.and_eq_true_iff.1 h
  exact Bool.and_eq_true_iff.2 ⟨Operand.allows_falseBeforeTrue c.relation c.operand, hsides⟩

theorem Comparison.holds_reject_eq {c : Comparison} (h : ¬ c.OrdersBoolean) (x : Context) :
    c.holds .reject x = c.holds .falseBeforeTrue x := by
  rw [holds_eq, holds_eq, allows_reject h, Operand.allows_falseBeforeTrue]

/-! ### Conditions -/

theorem Condition.holds_falseBeforeTrue {c : Condition} {x : Context} (h : c.holds .reject x) :
    c.holds .falseBeforeTrue x := by
  induction c with
  | comparison c => exact Comparison.holds_falseBeforeTrue h
  | group c ih => exact ih h
  | join op l r ihl ihr => exact Connective.apply_mono ihl ihr h

theorem Condition.holds_reject_eq {c : Condition} (h : ∀ d ∈ c.comparisons, ¬ d.OrdersBoolean)
    (x : Context) : c.holds .reject x = c.holds .falseBeforeTrue x := by
  induction c with
  | comparison c => exact Comparison.holds_reject_eq (h c List.mem_cons_self) x
  | group c ih => exact ih h
  | join op l r ihl ihr =>
    obtain ⟨hl, hr⟩ := List.forall_mem_append.1 h
    rw [holds, holds, ihl hl, ihr hr]

/-! ### Rules -/

theorem Rule.matched_falseBeforeTrue {r : Rule} {hand : List Properties}
    (hc : r.conditionHolds .reject hand) (hr : r.matched .reject hand) :
    r.matched .falseBeforeTrue hand := by
  refine matched_imp (Nat.le_refl _) (fun n _ j a b ha hb hn => ?_)
    (fun c _ j a b ha hb hholds => ?_) hc hr
  · obtain rfl := Option.some.inj (ha.symm.trans hb)
    exact hn
  · obtain rfl := Option.some.inj (ha.symm.trans hb)
    exact Condition.holds_falseBeforeTrue hholds

theorem Rule.matched_reject_eq {r : Rule} (h : ∀ c ∈ r.comparisons, ¬ c.OrdersBoolean)
    (hand : List Properties) : r.matched .reject hand = r.matched .falseBeforeTrue hand := by
  refine matched_congr rfl (fun n _ j a b ha hb => ?_) (fun c hc j a b ha hb => ?_)
  · rw [Option.some.inj (ha.symm.trans hb)]
  · rw [Option.some.inj (ha.symm.trans hb)]
    exact Condition.holds_reject_eq (fun d hd => h d (List.mem_flatMap_of_mem hc hd)) _

/-- **To order truth values only widens**: a condition that holds goes on to hold, and a rule that
matches goes on to match, unless it is by its other pattern that it does. A rule that compares no
truth value by `<`, `>`, `<=` or `>=` gives the same verdicts either way. -/
theorem Rule.verdicts_of_ordering :
    (∀ (c : Condition) (x : Context), c.holds .reject x → c.holds .falseBeforeTrue x) ∧
      (∀ (r : Rule) (hand : List Properties), r.conditionHolds .reject hand →
        r.matched .reject hand → r.matched .falseBeforeTrue hand) ∧
      ∀ r : Rule, (∀ c ∈ r.comparisons, ¬ c.OrdersBoolean) → ∀ hand : List Properties,
        r.matched .reject hand = r.matched .falseBeforeTrue hand :=
  ⟨fun _ _ => Condition.holds_falseBeforeTrue, fun _ _ => matched_falseBeforeTrue,
    fun _ => matched_reject_eq⟩

/-- By reference the truth values are ordered in either case, as numbers, and without the literal
nothing else depends on their order. -/
theorem Rule.verdicts_of_ordering_flags :
    (Rule.conditional (.join .or (.comparison ⟨⟨"up", none⟩, .gt, .boolean false⟩)
        (.comparison ⟨⟨"up", none⟩, .ge, .term ⟨"down", none⟩⟩)) [⟨"ace", none, none⟩]
        (some [⟨"king", none, none⟩])).matched .falseBeforeTrue
        [.ofList [("name", .string "ace"), ("up", .bool true), ("down", .bool false)]] ∧
      (∀ c ∈ (Rule.conditional (.comparison ⟨⟨"up", none⟩, .lt, .term ⟨"down", none⟩⟩)
        [⟨"king", none, none⟩] (some [⟨"ace", none, none⟩])).comparisons, ¬ c.OrdersBoolean) ∧
      (Rule.conditional (.comparison ⟨⟨"up", none⟩, .lt, .term ⟨"down", none⟩⟩)
        [⟨"king", none, none⟩] (some [⟨"ace", none, none⟩])).matched .falseBeforeTrue
        [.ofList [("name", .string "ace"), ("up", .bool true), ("down", .bool false)]] := by
  have hplain : ∀ c ∈ (Rule.conditional (.comparison ⟨⟨"up", none⟩, .lt, .term ⟨"down", none⟩⟩)
      [⟨"king", none, none⟩] (some [⟨"ace", none, none⟩])).comparisons, ¬ c.OrdersBoolean :=
    List.forall_mem_singleton.2 nofun
  refine ⟨Rule.verdicts_of_ordering.2.1 _ _ ?_ ?_, hplain, ?_⟩
  · decide +kernel
  · decide +kernel
  · rw [← Rule.verdicts_of_ordering.2.2 _ hplain]
    decide +kernel

/-- Once truth values are ordered the condition holds, and its pattern asks for what is missing. -/
example :
    (Rule.conditional (.comparison ⟨⟨"up", none⟩, .gt, .boolean false⟩) [⟨"king", none, none⟩]
        (some [⟨"ace", none, none⟩])).matched .reject
        [.ofList [("name", .string "ace"), ("up", .bool true)]] ∧
      ¬ (Rule.conditional (.comparison ⟨⟨"up", none⟩, .gt, .boolean false⟩)
        [⟨"king", none, none⟩] (some [⟨"ace", none, none⟩])).matched .falseBeforeTrue
        [.ofList [("name", .string "ace"), ("up", .bool true)]] := by
  decide +kernel

end Lineup
