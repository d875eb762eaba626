import Lineup.Relation
import Mathlib.Logic.ExistsUnique

/-!
# Six answers

The six relations are six questions about a pair of things, and their answers hang together. Of a
pair that is ordered, just one of `<`, `=` and `>` holds, and the other three relations follow from
it (`Relation.ordered_holds`). A pair that may be unordered keeps all of this but that one of the
three holds at all (`Relation.coherent_admits`).
-/

namespace Lineup.Relation

/-- A relation admits a pair just if its converse admits the pair the other way round. -/
theorem admits_converse (r : Relation) (p : Option Ordering) :
    r.converse.admits p = r.admits (p.map Ordering.swap) := by
  cases p with
  | none => cases r <;> rfl
  | some p => exact r.holds_converse p

/-- Says that one of `<`, `=` and `>` holds, as `R` tells, and which others do with it. -/
structure Ordered (R : Relation → Bool) : Prop where
  one : ∃! r, r ∈ [lt, eq, gt] ∧ R r
  ne : R .ne = !R .eq
  le : R .le = (R .lt || R .eq)
  ge : R .ge = (R .gt || R .eq)

/-- Says that one of `=` and `!=` holds, as `R` tells, and no other relation. -/
structure EqualityOnly (R : Relation → Bool) : Prop where
  ne : R .ne = !R .eq
  others : ∀ r ∈ [lt, gt, le, ge], R r = false

/-- Says that at most one of `<`, `=` and `>` holds, as `R` tells, and which others do with it. -/
structure Coherent (R : Relation → Bool) : Prop where
  atMostOne : ∀ r ∈ [lt, eq, gt], ∀ s ∈ [lt, eq, gt], R r → R s → r = s
  ne : R .ne = !R .eq
  le : R .le = (R .lt || R .eq)
  ge : R .ge = (R .gt || R .eq)

theorem Ordered.coherent {R : Relation → Bool} (h : Ordered R) : Coherent R where
  atMostOne _ hr _ hs hR hS := h.one.unique ⟨hr, hR⟩ ⟨hs, hS⟩
  ne := h.ne
  le := h.le
  ge := h.ge

/-- The one of `<`, `=` and `>` in which a pair of the order `p` stands. -/
def ofOrdering : Ordering → Relation
  | .lt => lt
  | .eq => eq
  | .gt => gt

theorem holds_iff_eq_ofOrdering {r : Relation} {p : Ordering} :
    r ∈ [lt, eq, gt] ∧ r.holds p ↔ r = ofOrdering p := by
  cases r <;> cases p <;> decide

theorem ordered_holds (p : Ordering) : Ordered fun r => r.holds p where
  one := ⟨ofOrdering p, holds_iff_eq_ofOrdering.2 rfl, fun _ => holds_iff_eq_ofOrdering.1⟩
  ne := by cases p <;> rfl
  le := by cases p <;> rfl
  ge := by cases p <;> rfl

theorem equalityOnly_holds (p : Ordering) :
    EqualityOnly fun r => r.isEquality && r.holds p where
  ne := by cases p <;> rfl
  others := by simp [isEquality]

/-- Of an unordered pair, none of `<`, `=` and `>` holds. -/
theorem coherent_admits (p : Option Ordering) : Coherent fun r => r.admits p := by
  cases p with
  | none =>
    refine ⟨fun r hr s hs hR hS => ?_, rfl, rfl, rfl⟩
    obtain rfl : r = .ne := of_decide_eq_true hR
    simp at hr
  | some p => exact (ordered_holds p).coherent

end Lineup.Relation
