import Lineup.Proofs.Roster.Building
import Lineup.Proofs.Value.Order

/-!
# What passes a test

Every test can be asked of every property. Of a property that has no value only the absence and the
equality with nothing pass (`Test.passes_none`). A value that is there is related to another as the
two compare (`Test.passes_related`), or else it is unequal to it and no more, and membership in a
list is equality with one of its members, so the tests fit together (`Test.passes_coherent`).
-/

namespace Lineup

theorem Expected.isNothing_eq_false {v : Value} (hv : v ≠ .null) :
    (Expected.one v).isNothing = false := by
  cases v with
  | null => exact absurd rfl hv
  | bool | int | float | string => rfl

namespace Test

/-! ### Properties without a value -/

/-- Null counts as no value. -/
theorem passes_some_null (t : Test) (e : Expected) : t.passes (some .null) e = t.passes none e :=
  rfl

theorem passes_none {t : Test} {e : Expected} :
    t.passes none e ↔ t = absent ∨ t = related .eq ∧ e = .nothing := by
  rw [passes]
  simp [Expected.isNothing_iff]

/-! ### Properties with a value -/

theorem passes_some {a : Value} (ha : a ≠ .null) (t : Test) (e : Expected) :
    t.passes (some a) e =
      if e.isNothing then t = related .ne || t = present else t.passesValue a e := by
  have hactual : (some a).filter (fun v => !v.isNull) = some a := by
    cases a with
    | null => exact absurd rfl ha
    | bool | int | float | string => rfl
  rw [passes, hactual]

/-- A test of a relation is passed by what the relation admits, NaN included. -/
theorem passes_related {r : Relation} {a v : Value} (ha : a ≠ .null) (hv : v ≠ .null) :
    (related r).passes (some a) (.one v) = r.admits (a.compare? v) := by
  rw [passes_some ha, Expected.isNothing_eq_false hv, if_neg Bool.false_ne_true]
  cases r with
  | eq | ne | lt | gt | le | ge =>
    simp only [passesValue, Value.comparesEqual, Value.decide_related?]
    cases a.compare? v with
    | none => rfl
    | some o => cases o <;> rfl

theorem passes_related_none {r : Relation} {v : Value} (hv : v ≠ .null) :
    (related r).passes none (.one v) = false := by
  apply Bool.eq_false_iff.2
  intro h
  obtain h | ⟨-, he⟩ := passes_none.1 h
  · cases h
  · exact hv (Expected.one.inj he)

theorem passes_some_nothing {a : Value} (ha : a ≠ .null) (t : Test) :
    t.passes (some a) .nothing = (t = related .ne || t = present) :=
  passes_some ha t .nothing

/-- Equality with a value, be it null, is that of comparing. -/
theorem passes_eq_one {a : Value} (ha : a ≠ .null) (v : Value) :
    (related .eq).passes (some a) (.one v) = a.comparesEqual v := by
  rw [passes_some ha]
  cases v with
  | null =>
    cases a with
    | null => exact absurd rfl ha
    | bool | int | float | string => rfl
  | bool | int | float | string => rfl

/-- The two tests of equality disagree on what is there. -/
theorem passes_ne_one {a : Value} (ha : a ≠ .null) (v : Value) :
    (related .ne).passes (some a) (.one v) = !(related .eq).passes (some a) (.one v) := by
  rw [passes_some ha, passes_some ha]
  split <;> rfl

theorem passes_member {a : Value} (ha : a ≠ .null) {vs : List Value} :
    member.passes (some a) (.many vs) ↔ ∃ v ∈ vs, (related .eq).passes (some a) (.one v) := by
  have hmember : member.passes (some a) (.many vs) = vs.any a.comparesEqual :=
    passes_some ha member (.many vs)
  simp only [hmember, List.any_eq_true, passes_eq_one ha]

theorem passes_notMember {a : Value} (ha : a ≠ .null) {vs : List Value} :
    notMember.passes (some a) (.many vs) ↔ ∀ v ∈ vs, (related .ne).passes (some a) (.one v) := by
  have hnotMember : notMember.passes (some a) (.many vs) = !vs.any a.comparesEqual :=
    passes_some ha notMember (.many vs)
  simp only [hnotMember, passes_ne_one ha, passes_eq_one ha, List.not_any_eq_all_not,
    List.all_eq_true]

/-! ### All tests of one property -/

/-- A property has no value, or one that is not null. -/
theorem noValue_or_value (actual : Option Value) :
    (actual = none ∨ actual = some .null) ∨ ∃ a, actual = some a ∧ a ≠ .null := by
  cases actual with
  | none => exact .inl (.inl rfl)
  | some a =>
    by_cases ha : a = .null
    · exact .inl (.inr (congrArg some ha))
    · exact .inr ⟨a, rfl, ha⟩

theorem passes_noValue {actual : Option Value} (h : actual = none ∨ actual = some .null)
    {t : Test} {e : Expected} :
    t.passes actual e ↔ t = absent ∨ t = related .eq ∧ e = .nothing := by
  rcases h with rfl | rfl
  · exact passes_none
  · rw [passes_some_null]
    exact passes_none

/-- **The tests of a property fit together**: it is either present or absent, and either equal to
nothing or not. Without a value it passes no test but those two that ask for none. With a value, its
relations to another one hang together as those of ordered or unordered things do, and it is a
member of a list just if it is equal to some member, null included. -/
theorem passes_coherent (actual : Option Value) :
    (present.passes actual .nothing = !absent.passes actual .nothing) ∧
      ((related .eq).passes actual .nothing = !(related .ne).passes actual .nothing) ∧
      (actual = none ∨ actual = some .null → ∀ t e,
        (t.passes actual e ↔ t = absent ∨ t = related .eq ∧ e = .nothing)) ∧
      ∀ a, actual = some a → a ≠ .null →
        (∀ v, v ≠ .null → Relation.Coherent fun r => (related r).passes actual (.one v)) ∧
          ∀ vs, (member.passes actual (.many vs) ↔
              ∃ v ∈ vs, (related .eq).passes actual (.one v)) ∧
            (notMember.passes actual (.many vs) ↔
              ∀ v ∈ vs, (related .ne).passes actual (.one v)) := by
  refine ⟨?_, ?_, fun h t e => passes_noValue h, ?_⟩
  · rcases noValue_or_value actual with h | ⟨a, rfl, ha⟩
    · rcases h with rfl | rfl <;> rfl
    · rw [passes_some_nothing ha, passes_some_nothing ha]
      rfl
  · rcases noValue_or_value actual with h | ⟨a, rfl, ha⟩
    · rcases h with rfl | rfl <;> rfl
    · rw [Expected.nothing, passes_ne_one ha, Bool.not_not]
  · rintro a rfl ha
    refine ⟨fun v hv => ?_, fun vs => ⟨passes_member ha, passes_notMember ha⟩⟩
    simp only [passes_related ha hv]
    exact Relation.coherent_admits (a.compare? v)

/-- What is absent is in no list, not even in one that has null. NaN is unequal to every member of
the other list, itself among them, and stands in no order to seven. -/
theorem passes_coherent_nan :
    ¬ member.passes none (.many [.null]) ∧
      Value.float (.ofParts false Binary64.quietNaN) ≠ .null ∧
      Relation.Coherent (fun r =>
        (related r).passes (some (.float (.ofParts false Binary64.quietNaN))) (.one (.int 7))) ∧
      notMember.passes (some (.float (.ofParts false Binary64.quietNaN)))
        (.many [.null, .float (.ofParts false Binary64.quietNaN), .int 7]) := by
  obtain ⟨-, -, habsent, -⟩ := passes_coherent none
  obtain ⟨-, -, -, hvalue⟩ := passes_coherent (some (.float (.ofParts false Binary64.quietNaN)))
  have hne : Value.float (.ofParts false Binary64.quietNaN) ≠ .null := nofun
  obtain ⟨hcoherent, hlists⟩ := hvalue _ rfl hne
  refine ⟨fun h => ?_, hne, hcoherent (.int 7) nofun, (hlists _).2.2 ?_⟩
  · obtain h | ⟨h, -⟩ := (habsent (.inl rfl) member (.many [.null])).1 h <;> cases h
  · decide +kernel

end Test

end Lineup
