import Lineup.Proofs.Relation
import Lineup.Proofs.Value

/-!
# Comparisons of properties

A comparison of two properties reads them by different ways: its subject from the item at which it
is judged, the other side from the hand. Where the item is the one at the current index of the hand,
or there is no hand, both ways lead to the same value (`Context.operand?_eq_subject?`). As two
values are ordered the other way round when they change sides (`Value.coercedOrder?_swap`), a
comparison can be turned around (`Comparison.holds_mirrored`). As a value is equal to itself unless
it is NaN (`Value.coercedOrder?_self`), so are two properties that have the same value
(`Comparison.holds_self`).
-/

namespace Lineup

theorem Value.coercedOrder?_swap (v w : Value) :
    w.coercedOrder? v = (v.coercedOrder? w).map Ordering.swap := by
  -- The order is that of the texts unless both sides are numbers, whichever of them is not.
  have htext : some (compare w.text v.text) =
      (some (compare v.text w.text)).map Ordering.swap :=
    congrArg some Std.OrientedOrd.eq_swap
  rw [coercedOrder?, coercedOrder?]
  cases v.coerced? with
  | none => cases w.coerced? <;> exact htext
  | some x =>
    cases w.coerced? with
    | none => exact htext
    | some y => exact x.compare?_swap y

/-! ### Where properties are read -/

/-- Says that a context is at an item by itself, or at the item of a hand at the current index. -/
def Context.AtItem (x : Context) : Prop := ∀ hand ∈ x.hand, hand[x.index]? = some x.item

theorem Context.operandItem?_eq_subjectItem? {x : Context} (h : x.AtItem) (p : Option Position) :
    x.operandItem? p = x.subjectItem? p := by
  cases p with
  | some p => rfl
  | none =>
    rw [operandItem?, subjectItem?]
    cases hhand : x.hand with
    | none => rfl
    | some hand => exact h hand hhand

theorem Context.operand?_eq_subject? {x : Context} (h : x.AtItem) (t : Term) :
    x.operand? t = x.subject? t := by
  rw [operand?, subject?, operandItem?_eq_subjectItem? h]

/-! ### Turning comparisons around -/

/-- What a comparison of two properties comes down to at an item. -/
theorem Comparison.holds_term {x : Context} (h : x.AtItem) (o : BoolOrdering) (t u : Term)
    (r : Relation) :
    (t.compared r (.term u)).holds o x =
      (x.subject? t).any fun v => (x.subject? u).any fun w => r.admits (v.coercedOrder? w) := by
  rw [Term.compared, holds]
  cases x.subject? t with
  | none => rfl
  | some v => simp only [Context.operand?_eq_subject? h, Option.any_some]

/-- **Comparisons of properties mirror**: a property stands in a relation to another just if the
other stands in the converse relation to it, at each item of a hand and at an item by itself. -/
theorem Comparison.holds_mirrored (o : BoolOrdering) (t u : Term) (r : Relation) :
    (∀ (hand : List Properties) (j : Nat) (item : Properties), hand[j]? = some item →
        (t.compared r (.term u)).holds o ⟨item, some hand, j⟩ =
          (u.compared r.converse (.term t)).holds o ⟨item, some hand, j⟩) ∧
      ∀ (item : Properties) (j : Nat),
        (t.compared r (.term u)).holds o ⟨item, none, j⟩ =
          (u.compared r.converse (.term t)).holds o ⟨item, none, j⟩ := by
  have hmirror : ∀ x : Context, x.AtItem →
      (t.compared r (.term u)).holds o x = (u.compared r.converse (.term t)).holds o x := by
    intro x hx
    rw [holds_term hx, holds_term hx]
    cases x.subject? t with
    | none => cases x.subject? u <;> rfl
    | some v =>
      cases x.subject? u with
      | none => rfl
      | some w =>
        simp only [Option.any_some]
        rw [Relation.admits_converse, ← Value.coercedOrder?_swap]
  constructor
  · intro hand j item hitem
    exact hmirror _ fun hand' hhand => Option.some.inj hhand ▸ hitem
  · intro item j
    exact hmirror _ nofun

/-- As texts ten would come before seven, and with its blank the text before both. -/
theorem Comparison.holds_mirrored_ten :
    [Properties.ofList [("rank", .string " 7")], .ofList [("rank", .int 10)]][1]? =
        some (.ofList [("rank", .int 10)]) ∧
      ((Term.named "rank").compared .gt (.term ((Term.named "rank").pinned 0))).holds .reject
        ⟨.ofList [("rank", .int 10)],
          some [.ofList [("rank", .string " 7")], .ofList [("rank", .int 10)]], 1⟩ := by
  have hitem : [Properties.ofList [("rank", .string " 7")], .ofList [("rank", .int 10)]][1]? =
      some (.ofList [("rank", .int 10)]) := rfl
  refine ⟨hitem, ?_⟩
  rw [(Comparison.holds_mirrored .reject (Term.named "rank") ((Term.named "rank").pinned 0)
    .gt).1 _ _ _ hitem]
  decide +kernel

/-! ### The same value on both sides -/

/-- **A property equals itself**: if both sides of a comparison have the same value, `=`, `<=` and
`>=` hold and no other relation does. Only for NaN, be it a float or a text that reads as NaN, is it
the other way round: `!=` holds and nothing else. -/
theorem Comparison.holds_self (o : BoolOrdering) (x : Context) (t u : Term) (v : Value)
    (ht : x.subject? t = some v) (hu : x.operand? u = some v) :
    (v.isNaN = false →
        ∀ r, (t.compared r (.term u)).holds o x ↔ r ∈ [Relation.eq, .le, .ge]) ∧
      (v.isNaN = true → ∀ r, (t.compared r (.term u)).holds o x ↔ r = .ne) := by
  have hholds : ∀ r, (t.compared r (.term u)).holds o x =
      r.admits (if v.isNaN then none else some .eq) := by
    intro r
    rw [← v.coercedOrder?_self, Term.compared, holds, ht]
    dsimp only
    rw [hu, Option.any_some]
  constructor
  · intro hv r
    rw [hholds, hv]
    cases r <;> decide
  · intro hv r
    rw [hholds, hv]
    exact decide_eq_true_iff

/-- With blanks and an exponent that no double has room for, the text reads as infinity. -/
theorem Comparison.holds_self_infinite :
    Context.subject? ⟨.ofList [("rank", .string "-1e400\n")],
        some [.empty, .ofList [("rank", .string "-1e400\n")]], 1⟩
        ((Term.named "rank").pinned 1) = some (.string "-1e400\n") ∧
      Context.operand? ⟨.ofList [("rank", .string "-1e400\n")],
        some [.empty, .ofList [("rank", .string "-1e400\n")]], 1⟩
        (Term.named "rank") = some (.string "-1e400\n") ∧
      (Value.string "-1e400\n").isNaN = false ∧
      ∀ r, (((Term.named "rank").pinned 1).compared r (.term (Term.named "rank"))).holds .reject
          ⟨.ofList [("rank", .string "-1e400\n")],
            some [.empty, .ofList [("rank", .string "-1e400\n")]], 1⟩ ↔
        r ∈ [Relation.eq, .le, .ge] := by
  have hsubject : Context.subject? ⟨.ofList [("rank", .string "-1e400\n")],
      some [.empty, .ofList [("rank", .string "-1e400\n")]], 1⟩
      ((Term.named "rank").pinned 1) = some (.string "-1e400\n") := rfl
  have hoperand : Context.operand? ⟨.ofList [("rank", .string "-1e400\n")],
      some [.empty, .ofList [("rank", .string "-1e400\n")]], 1⟩
      (Term.named "rank") = some (.string "-1e400\n") := rfl
  have hnan : (Value.string "-1e400\n").isNaN = false := by decide
  exact ⟨hsubject, hoperand, hnan,
    (Comparison.holds_self .reject _ _ _ _ hsubject hoperand).1 hnan⟩

/-- That both sides have the same value is not enough if the value is a text: `nan` is a number that
is not equal to itself. -/
theorem Comparison.not_holds_self_nan :
    [Properties.ofList [("v", .string "nan")]][0]? = some (.ofList [("v", .string "nan")]) ∧
      Context.subject? ⟨.ofList [("v", .string "nan")],
        some [.ofList [("v", .string "nan")]], 0⟩ (.named "v") = some (.string "nan") ∧
      Context.operand? ⟨.ofList [("v", .string "nan")],
        some [.ofList [("v", .string "nan")]], 0⟩ (.named "v") = some (.string "nan") ∧
      ¬ ((Term.named "v").compared .eq (.term (.named "v"))).holds .reject
        ⟨.ofList [("v", .string "nan")], some [.ofList [("v", .string "nan")]], 0⟩ ∧
      ((Term.named "v").compared .ne (.term (.named "v"))).holds .reject
        ⟨.ofList [("v", .string "nan")], some [.ofList [("v", .string "nan")]], 0⟩ := by
  refine ⟨rfl, rfl, rfl, ?_, ?_⟩ <;> decide +kernel

end Lineup
