import Lineup.Proofs.Binary64.Integers
import Lineup.Proofs.Roster.Report
import Lineup.Proofs.Roster.Tests
import Lineup.Rule.Verdict

/-!
# Tests as conditions

A roster that only relates properties to values can be written as a condition: each test as a
comparison with a literal, and all of them joined by `and`. The two differ in how they compare, but
not on values of one kind (`RelationTest.passes_eq_holds`). A test relates two integers exactly,
whereas a literal is always rounded, so integers that are compared with each other must not be too
large. Nor do they agree on values of different kinds, which are unequal to a test.
-/

namespace Lineup

/-! ### Single tests -/

/-- What a value other than null is compared with when it is written into a condition. -/
def Value.literal : (v : Value) → v ≠ null → Operand
  | bool b, _ => .boolean b
  | int n, _ => .ofInt n
  | float x, _ => .number x
  | string s, _ => .string s
  | null, h => absurd rfl h

/-- Says that two values are of one kind, and not too large if both are integers. -/
inductive Value.LikeTyped : Value → Value → Prop where
  | bool (a b : Bool) : LikeTyped (.bool a) (.bool b)
  | int {m n : Int64} (hm : m.toInt.natAbs ≤ Binary64.exactBound)
      (hn : n.toInt.natAbs ≤ Binary64.exactBound) : LikeTyped (.int m) (.int n)
  | intFloat (m : Int64) (y : Binary64) : LikeTyped (.int m) (.float y)
  | floatInt (x : Binary64) (n : Int64) : LikeTyped (.float x) (.int n)
  | float (x y : Binary64) : LikeTyped (.float x) (.float y)
  | string (s t : String) : LikeTyped (.string s) (.string t)

theorem Value.LikeTyped.ne_null {a v : Value} (h : a.LikeTyped v) : a ≠ .null := by
  rintro rfl
  cases h

theorem Comparison.holds_number {o : BoolOrdering} {x : Context} {t : Term} {r : Relation}
    {y z : Binary64} {v : Value} (hv : x.subject? t = some v) (hz : v.asNumber? = some z) :
    (t.compared r (.number y)).holds o x = r.admits (z.compare? y) := by
  simp only [Term.compared, holds, hv, hz, Option.any_some]

/-- A test that relates a property to a value. -/
structure RelationTest where
  property : String
  relation : Relation
  value : Value
  ne_null : value ≠ .null

namespace RelationTest

def requirement (t : RelationTest) : Requirement :=
  .test t.property (.related t.relation) (.one t.value)

def condition (t : RelationTest) : Condition :=
  .comparison ((Term.named t.property).compared t.relation (t.value.literal t.ne_null))

/-- Says that a property, where it is there, is of one kind with the value it is related to. -/
def LikeTyped (t : RelationTest) (i : Item) : Prop := ∀ a ∈ i.get? t.property, a.LikeTyped t.value

/-- A test is passed by just the items at which its condition holds. -/
theorem passes_eq_holds {t : RelationTest} {i : Item} (h : t.LikeTyped i) (index : Nat) :
    (Test.related t.relation).passes (i.get? t.property) (.one t.value) =
      t.condition.holds .falseBeforeTrue ⟨i.properties, none, index⟩ := by
  obtain ⟨p, r, v, hv⟩ := t
  have hsubject : Context.subject? ⟨i.properties, none, index⟩ (.named p) = i.get? p := rfl
  rw [condition, Condition.holds]
  dsimp only
  cases ha : i.get? p with
  | none =>
    rw [Test.passes_related_none hv, Term.compared, Comparison.holds, hsubject, ha]
  | some a =>
    have hlike : a.LikeTyped v := h a ha
    have hfound := hsubject.trans ha
    rw [Test.passes_related hlike.ne_null hv]
    cases hlike with
    | @int m n hm hn =>
      have hcompare : Value.compare? (.int m) (.int n) =
          (Binary64.ofInt m.toInt).compare? (.ofInt n.toInt) :=
        (Binary64.compare?_ofInt hm hn).symm
      rw [hcompare]
      exact (Comparison.holds_number hfound rfl).symm
    | intFloat | floatInt | float => exact (Comparison.holds_number hfound rfl).symm
    | bool a b =>
      rw [Term.compared, Comparison.holds, hfound]
      simp [Value.literal, Value.relatesToBool, Value.compare?, Relation.admits]
    | string s t =>
      rw [Term.compared, Comparison.holds, hfound]
      rfl

end RelationTest

/-! ### Conjunctions -/

/-- The conditions of a list joined by `and`, the first two first. -/
def Condition.conjunction : List Condition → Option Condition
  | [] => none
  | c :: cs => some (cs.foldl Condition.and c)

theorem Condition.holds_foldl_and {o : BoolOrdering} {x : Context} (cs : List Condition)
    (c : Condition) :
    (cs.foldl Condition.and c).holds o x ↔ c.holds o x ∧ ∀ d ∈ cs, d.holds o x := by
  induction cs generalizing c with
  | nil => simp
  | cons d cs ih =>
    rw [List.foldl_cons, ih, List.forall_mem_cons, ← and_assoc]
    exact and_congr_left' (Bool.and_eq_true_iff)

theorem holdsIfAny_conjunction {o : BoolOrdering} {x : Context} (cs : List Condition) :
    holdsIfAny o x (Condition.conjunction cs) ↔ ∀ c ∈ cs, c.holds o x := by
  cases cs with
  | nil => simp [Condition.conjunction, holdsIfAny]
  | cons c cs =>
    rw [Condition.conjunction, holdsIfAny, Condition.holds_foldl_and, List.forall_mem_cons]

/-! ### Rosters -/

/-- **Rosters and conditions agree on values of one kind**: a roster of tests that relate properties
to values can be built, and it matches items with the names that it asks for if and only if at each
of them the tests hold as a condition, which they do one by one. -/
theorem Roster.matched_iff_conjunction (tests : List RelationTest) (verbose : Bool)
    (items : List Item) (hne : items ≠ []) (h : ∀ i ∈ items, ∀ t ∈ tests, t.LikeTyped i) :
    ∃ r, Draft.build ⟨tests.map RelationTest.requirement, items.map Item.name, verbose⟩ = .ok r ∧
      (∀ i ∈ items, ∀ t ∈ tests, ∀ x index, t.requirement.run i x =
        .ok (t.condition.holds .falseBeforeTrue ⟨i.properties, none, index⟩)) ∧
      ∀ index, (r.matched items ↔ ∀ i ∈ items, holdsIfAny .falseBeforeTrue
        ⟨i.properties, none, index⟩
        (Condition.conjunction (tests.map RelationTest.condition))) := by
  have hfault : (tests.map RelationTest.requirement).findSome? Requirement.fault? = none := by
    simp only [List.findSome?_map, List.findSome?_eq_none_iff]
    exact fun t _ => rfl
  have hrun : ∀ i ∈ items, ∀ t ∈ tests, ∀ x index, t.requirement.run i x =
      .ok (t.condition.holds .falseBeforeTrue ⟨i.properties, none, index⟩) := by
    intro i hi t ht x index
    rw [← RelationTest.passes_eq_holds (h i hi t ht)]
    rfl
  refine ⟨_, Draft.build_eq_ok hfault, hrun, fun index => ?_⟩
  rw [matched_iff hne rfl]
  simp only [holdsIfAny_conjunction, List.forall_mem_map]
  constructor
  · intro hall i hi t ht
    obtain ⟨n, hn⟩ := List.mem_iff_getElem?.1 hi
    have hok := hall n i hn t ht
    rw [hrun i hi t ht _ index] at hok
    exact Except.ok.inj hok
  · intro hall n i hn t ht
    have hi := List.mem_of_getElem? hn
    rw [hrun i hi t ht _ index, hall i hi t ht]

/-- One card has its rank as a float and the other one as an integer, and neither has the weight
that is no number. -/
theorem Roster.matched_iff_conjunction_cards :
    ∃ r, Draft.build ⟨[.test "rank" (.related .ge) (.one (.int 5)),
        .test "weight" (.related .ne) (.one (.float (.ofParts false Binary64.quietNaN)))],
          ["card", "card"], false⟩ = .ok r ∧
      r.matched [((Item.named "card").insert "rank" (.float (.ofInt 5))).insert "weight" (.int 1),
        ((Item.named "card").insert "rank" (.int 7)).insert "weight" (.float (.ofInt 1))] := by
  obtain ⟨r, hr, -, hmatched⟩ := Roster.matched_iff_conjunction
    [⟨"rank", .ge, .int 5, nofun⟩,
      ⟨"weight", .ne, .float (.ofParts false Binary64.quietNaN), nofun⟩] false
    [((Item.named "card").insert "rank" (.float (.ofInt 5))).insert "weight" (.int 1),
      ((Item.named "card").insert "rank" (.int 7)).insert "weight" (.float (.ofInt 1))] nofun <| by
    refine List.forall_mem_cons.2 ⟨List.forall_mem_cons.2 ⟨?_, List.forall_mem_singleton.2 ?_⟩,
      List.forall_mem_singleton.2 (List.forall_mem_cons.2 ⟨?_, List.forall_mem_singleton.2 ?_⟩)⟩
    · rintro _ ⟨⟩
      exact .floatInt _ _
    · rintro _ ⟨⟩
      exact .intFloat _ _
    · rintro _ ⟨⟩
      exact .int (by decide) (by decide)
    · rintro _ ⟨⟩
      exact .float _ _
  refine ⟨r, hr, (hmatched 0).2 ?_⟩
  refine List.forall_mem_cons.2 ⟨?_, List.forall_mem_singleton.2 ?_⟩ <;> decide +kernel

end Lineup
