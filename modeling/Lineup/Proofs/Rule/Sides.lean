import Lineup.Proofs.Rule.Comparisons

/-!
# The sides of a comparison

A comparison sets two things against each other: two numbers, two texts or two truth values. Which
ones they are, and whether there are any, depends on its subject and its operand but never on its
relation (`Context.sides?`), so the six relations are six questions about one order
(`Comparison.holds_eq`). Their answers hang together (`Comparison.holds_outcome`): where the sides
are ordered, just one of `<`, `=` and `>` holds and the other three follow from it; NaN leaves only
`!=`; and without two sides nothing holds. Truth values that are not ordered are equal or unequal
and nothing else.
-/

namespace Lineup

/-! ### Sides -/

/-- The two things that a comparison sets against each other. -/
inductive Sides where
  | numbers (a b : Binary64)
  | texts (a b : String)
  | bools (a b : Bool)

def Sides.order? : Sides → Option Ordering
  | numbers a b => a.compare? b
  | texts a b => some (compare a b)
  | bools a b => some (compare a b)

/-- Only a number that is NaN makes two sides unordered. -/
theorem Sides.order?_eq_none_iff {s : Sides} :
    s.order? = none ↔ ∃ a b, s = numbers a b ∧ (a.isNaN ∨ b.isNaN) := by
  constructor
  · intro h
    cases s with
    | numbers a b => exact ⟨a, b, rfl, Binary64.compare?_eq_none_iff.1 h⟩
    | texts | bools => cases h
  · rintro ⟨a, b, rfl, hnan⟩
    exact Binary64.compare?_eq_none_iff.2 hnan

/-- Two properties are compared as numbers where both are, else as texts. -/
def Value.sidesWith (v w : Value) : Sides :=
  match v.coerced?, w.coerced? with
  | some a, some b => .numbers a b
  | _, _ => .texts v.text w.text

theorem Value.order?_sidesWith (v w : Value) : (v.sidesWith w).order? = v.coercedOrder? w := by
  rw [sidesWith, coercedOrder?]
  cases v.coerced? with
  | none => rfl
  | some a => cases w.coerced? <;> rfl

namespace Context

variable (x : Context)

/-- What a value and an operand come down to. There is nothing where the value is not of the kind
that a literal asks for, or where the other property is not found. -/
def sidesOf? (v : Value) : Operand → Option Sides
  | .number y => v.asNumber?.map fun a => .numbers a y
  | .boolean b =>
    match v with
    | .bool a => some (.bools a b)
    | _ => none
  | .string s => some (.texts v.text s)
  | .term t => (x.operand? t).map v.sidesWith

/-- The sides of a comparison of a property with an operand, whatever its relation. -/
def sides? (t : Term) (v : Operand) : Option Sides := (x.subject? t).bind fun a => x.sidesOf? a v

end Context

/-- Whether a relation can be asked for at all. Only the order of truth values may be ruled out. -/
def Operand.allows (o : BoolOrdering) (r : Relation) : Operand → Bool
  | .boolean _ => r.isEquality || o = .falseBeforeTrue
  | _ => true

/-- A comparison holds just if its relation can be asked for and admits the order of its sides. -/
theorem Comparison.holds_eq (o : BoolOrdering) (x : Context) (c : Comparison) :
    c.holds o x = (c.operand.allows o c.relation &&
      (x.sides? c.subject c.operand).any fun s => c.relation.admits s.order?) := by
  obtain ⟨t, r, v⟩ := c
  simp only [holds, Context.sides?]
  cases x.subject? t with
  | none => simp
  | some a =>
    cases v with
    | number y => simp [Context.sidesOf?, Operand.allows, Sides.order?, Option.any_map]
    | boolean b =>
      cases a with
      | bool a => simp [Context.sidesOf?, Operand.allows, Value.relatesToBool, Sides.order?,
          Relation.admits]
      | null | int | float | string => simp [Context.sidesOf?, Value.relatesToBool]
    | string s => rfl
    | term u => simp [Context.sidesOf?, Operand.allows, Option.any_map, Value.order?_sidesWith]

/-! ### Six answers -/

/-- What becomes of a comparison, all relations taken together. -/
inductive Outcome where
  | unresolved
  | unordered
  | ordered

namespace Outcome

/-- Says that the relations hold, as `R` tells, in the way that belongs to an outcome. -/
def Describes (R : Relation → Bool) : Outcome → Prop
  | unresolved => ∀ r, R r = false
  | unordered => ∀ r, R r ↔ r = .ne
  | ordered => Relation.Ordered R

variable {R : Relation → Bool} {k k' : Outcome}

/-- The outcome to which answers belong, if they belong to any. -/
def ofAnswers (R : Relation → Bool) : Outcome :=
  if [Relation.lt, .eq, .gt].any R then ordered else if R .ne then unordered else unresolved

theorem Describes.eq_ofAnswers (h : k.Describes R) : k = ofAnswers R := by
  cases k with
  | unresolved => simp [ofAnswers, h .lt, h .eq, h .gt, h .ne]
  | unordered =>
    have hother : ∀ r, r ≠ .ne → R r = false := fun r hr =>
      Bool.eq_false_iff.2 fun hR => hr ((h r).1 hR)
    simp [ofAnswers, (h .ne).2, hother]
  | ordered =>
    obtain ⟨r, ⟨hr, hR⟩, -⟩ := h.one
    rw [ofAnswers, if_pos (List.any_eq_true.2 ⟨r, hr, hR⟩)]

/-- The same answers never belong to two outcomes. -/
theorem Describes.unique (h : k.Describes R) (h' : k'.Describes R) : k = k' :=
  h.eq_ofAnswers.trans h'.eq_ofAnswers.symm

/-- The outcome of setting two things, if there are two, against each other. -/
def ofSides : Option Sides → Outcome
  | none => unresolved
  | some s => if s.order?.isSome then ordered else unordered

theorem describes_ofSides (s : Option Sides) :
    (ofSides s).Describes fun r => s.any fun s => r.admits s.order? := by
  cases s with
  | none => exact fun _ => rfl
  | some s =>
    rw [ofSides]
    simp only [Option.any_some]
    cases s.order? with
    | none => exact fun r => decide_eq_true_iff
    | some p => exact Relation.ordered_holds p

theorem ofSides_eq_unresolved_iff {s : Option Sides} : ofSides s = unresolved ↔ s = none := by
  cases s with
  | none => exact iff_of_true rfl rfl
  | some s =>
    refine iff_of_false ?_ nofun
    rw [ofSides]
    split <;> exact nofun

/-- Two sides are unordered just if both are numbers and one of them is NaN. -/
theorem ofSides_eq_unordered_iff {s : Option Sides} :
    ofSides s = unordered ↔ ∃ a b, s = some (.numbers a b) ∧ (a.isNaN ∨ b.isNaN) := by
  cases s with
  | none => exact iff_of_false nofun nofun
  | some s =>
    simp only [Option.some_inj, ← Sides.order?_eq_none_iff, ofSides]
    cases s.order? <;> simp

end Outcome

/-- The answers to the six questions that can be asked about a property and an operand. -/
def Context.answers (x : Context) (o : BoolOrdering) (t : Term) (v : Operand) (r : Relation) :
    Bool :=
  (t.compared r v).holds o x

theorem Context.answers_eq {o : BoolOrdering} {v : Operand}
    (h : (∀ b, v ≠ .boolean b) ∨ o = .falseBeforeTrue) (x : Context) (t : Term) :
    x.answers o t v = fun r => (x.sides? t v).any fun s => r.admits s.order? := by
  funext r
  have hallows : v.allows o r := by
    cases v with
    | boolean b =>
      have ho : o = .falseBeforeTrue := h.resolve_left fun hv => hv b rfl
      simp [Operand.allows, ho]
    | number | string | term => rfl
  rw [answers, Comparison.holds_eq, Term.compared, hallows, Bool.true_and]

theorem Context.sides?_boolean {x : Context} {t : Term} {b : Bool} {s : Sides}
    (h : x.sides? t (.boolean b) = some s) : ∃ a, s = .bools a b := by
  obtain ⟨v, -, hv⟩ := Option.bind_eq_some_iff.1 h
  cases v with
  | bool a => exact ⟨a, (Option.some.inj hv).symm⟩
  | null | int | float | string => cases hv

/-- **The six relations are one comparison**: where a comparison can be made, either just one of
`<`, `=` and `>` holds, and the other three relations as they follow from it, or NaN is one of two
numbers and only `!=` holds; where it cannot, nothing holds. If truth values are not ordered, a
literal that is one leaves `=` or `!=` but nothing else. -/
theorem Comparison.holds_outcome (o : BoolOrdering) (x : Context) (t : Term) (v : Operand) :
    ((∀ b, v ≠ .boolean b) ∨ o = .falseBeforeTrue →
        (∃! k : Outcome, k.Describes (x.answers o t v)) ∧
          (Outcome.unresolved.Describes (x.answers o t v) ↔ x.sides? t v = none) ∧
          (Outcome.unordered.Describes (x.answers o t v) ↔
            ∃ a b, x.sides? t v = some (.numbers a b) ∧ (a.isNaN ∨ b.isNaN))) ∧
      ∀ b, (Outcome.unresolved.Describes (x.answers .reject t (.boolean b)) ∧
            x.sides? t (.boolean b) = none) ∨
          (Relation.EqualityOnly (x.answers .reject t (.boolean b)) ∧
            ∃ a, x.sides? t (.boolean b) = some (.bools a b)) := by
  constructor
  · intro h
    have hdescribes := Outcome.describes_ofSides (x.sides? t v)
    rw [← Context.answers_eq h x t] at hdescribes
    have hiff : ∀ k, k.Describes (x.answers o t v) ↔ Outcome.ofSides (x.sides? t v) = k :=
      fun k => ⟨hdescribes.unique, fun hk => hk ▸ hdescribes⟩
    refine ⟨⟨_, hdescribes, fun k hk => hk.unique hdescribes⟩, ?_, ?_⟩
    · rw [hiff, Outcome.ofSides_eq_unresolved_iff]
    · rw [hiff, Outcome.ofSides_eq_unordered_iff]
  · intro b
    cases hsides : x.sides? t (.boolean b) with
    | none =>
      refine .inl ⟨fun r => ?_, rfl⟩
      rw [Context.answers, holds_eq, Term.compared, hsides, Option.any_none, Bool.and_false]
    | some s =>
      obtain ⟨a, rfl⟩ := Context.sides?_boolean hsides
      have hanswers : x.answers .reject t (.boolean b) =
          fun r => r.isEquality && r.holds (compare a b) := by
        funext r
        rw [Context.answers, holds_eq, Term.compared, hsides]
        simp [Operand.allows, Sides.order?, Relation.admits]
      refine .inr ⟨?_, a, rfl⟩
      rw [hanswers]
      exact Relation.equalityOnly_holds _

/-- The text of the rank is that of NaN, so it is a number and yet neither below seven nor above it
nor equal to it. -/
theorem Comparison.holds_outcome_nan :
    ((∀ b, Operand.number ⟨0x401c000000000000⟩ ≠ .boolean b) ∨
        BoolOrdering.reject = .falseBeforeTrue) ∧
      Outcome.unordered.Describes (Context.answers
        ⟨.ofList [("rank", .string " nan ")], none, 0⟩ .reject (.named "rank")
        (.number ⟨0x401c000000000000⟩)) := by
  have hoperand : (∀ b, Operand.number ⟨0x401c000000000000⟩ ≠ .boolean b) ∨
      BoolOrdering.reject = .falseBeforeTrue := .inl fun b => nofun
  have houtcome := (Comparison.holds_outcome .reject
    ⟨.ofList [("rank", .string " nan ")], none, 0⟩ (.named "rank")
    (.number ⟨0x401c000000000000⟩)).1 hoperand
  exact ⟨hoperand, houtcome.2.2.2 ⟨.ofParts false Binary64.quietNaN, _, rfl, .inl rfl⟩⟩

end Lineup
