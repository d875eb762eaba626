import Lineup.Proofs.Digest
import Lineup.Proofs.Value.Order

/-!
# Equality of values

Values are equal if they hold the same thing. Equality is finer than comparing, which takes integers
and floats for one kind, and it makes no exception of NaN. Numbers are alike just if the same bits
stand for them (`Binary64.canonicalBits_eq_iff`), so values are equal just if they have the same
digest (`Value.digest_eq_iff`), and equality is an equivalence for that reason.
-/

namespace Lineup

/-! ### Numbers -/

namespace Binary64

theorem key_eq_key_iff {x y : Binary64} :
    x.key = y.key ↔ x = y ∨ x.magnitude = 0 ∧ y.magnitude = 0 := by
  constructor
  · intro h
    by_cases hzero : x.magnitude = 0 ∧ y.magnitude = 0
    · exact .inr hzero
    · have hparts : x.negative = y.negative ∧ x.magnitude = y.magnitude := by
        unfold key at h
        cases hx : x.negative <;> cases hy : y.negative <;> simp [hx, hy] at h ⊢ <;> omega
      rw [← x.ofParts_magnitude, ← y.ofParts_magnitude, hparts.1, hparts.2]
      exact .inl rfl
  · rintro (rfl | ⟨hx, hy⟩)
    · rfl
    · simp [key, hx, hy]

/-- The only numbers that are alike without being equal are NaN. -/
theorem compare?_eq_eq_iff_alike {x y : Binary64} :
    x.compare? y = some .eq ↔ x.alike y ∧ x.isNaN = false := by
  rw [alike_iff]
  constructor
  · intro h
    exact ⟨.inr h, (compare?_eq_eq_iff.1 h).1⟩
  · rintro ⟨⟨hx, -⟩ | h, hnan⟩
    · rw [hx] at hnan
      cases hnan
    · exact h

theorem isNaN_canonicalBits (x : Binary64) : (mk x.canonicalBits).isNaN = x.isNaN := by
  unfold canonicalBits
  split_ifs with hnan hzero
  · exact hnan.symm
  · exact (Bool.eq_false_iff.2 hnan).symm
  · rfl

theorem key_canonicalBits {x : Binary64} (h : x.isNaN = false) :
    (mk x.canonicalBits).key = x.key := by
  rw [canonicalBits, if_neg (Bool.eq_false_iff.1 h)]
  split_ifs with hzero
  · exact key_eq_key_iff.2 (.inr ⟨rfl, hzero⟩)
  · rfl

/-- Numbers are alike just if the same bits stand for them. -/
theorem canonicalBits_eq_iff {x y : Binary64} : x.canonicalBits = y.canonicalBits ↔ x.alike y := by
  rw [alike_iff]
  constructor
  · intro h
    have hnan : y.isNaN = x.isNaN := by rw [← isNaN_canonicalBits y, ← h, isNaN_canonicalBits]
    cases hx : x.isNaN with
    | true => exact .inl ⟨rfl, hnan.trans hx⟩
    | false =>
      have hy := hnan.trans hx
      refine .inr (compare?_eq_eq_iff.2 ⟨hx, hy, ?_⟩)
      rw [← key_canonicalBits hx, h, key_canonicalBits hy]
  · rintro (⟨hx, hy⟩ | heq)
    · rw [canonicalBits, canonicalBits, if_pos hx, if_pos hy]
    · obtain ⟨hx, hy, hkey⟩ := compare?_eq_eq_iff.1 heq
      rcases key_eq_key_iff.1 hkey with rfl | ⟨hzero, hzero'⟩
      · rfl
      · rw [canonicalBits, canonicalBits, if_neg (Bool.eq_false_iff.1 hx),
          if_neg (Bool.eq_false_iff.1 hy), if_pos hzero, if_pos hzero']

end Binary64

namespace Value

/-! ### Digests -/

theorem delimits_digest : Delimits digest (fun a b => a == b) where
  ne_nil a := by cases a <;> exact List.cons_ne_nil _ _
  append_iff := by
    intro a b s t
    cases a with
    | null => cases b <;> simp [digest, BEq.beq, alike]
    | bool p =>
      cases b with
      | bool q => cases p <;> cases q <;> simp [digest, BEq.beq, alike]
      | null | int | float | string => simp [digest, BEq.beq, alike]
    | int m =>
      cases b with
      | int n =>
        have hbits : m.toUInt64 = n.toUInt64 ↔ m = n := (Int64.ofUInt64.injEq ..).symm.to_iff
        simp [digest, BEq.beq, alike, hbits]
      | null | bool | float | string => simp [digest, BEq.beq, alike]
    | float x => cases b <;> simp [digest, BEq.beq, alike, Binary64.canonicalBits_eq_iff]
    | string u => cases b <;> simp [digest, BEq.beq, alike, delimits_textDigest.append_iff]

theorem digest_eq_iff {a b : Value} : a.digest = b.digest ↔ a == b :=
  delimits_digest.eq_iff

instance : EquivBEq Value := equivBEq_of_eq_iff fun _ _ => digest_eq_iff

instance : LawfulHashable Value where
  hash_eq _ _ h := congrArg (fun d : List UInt64 => hash d) (digest_eq_iff.2 h)

/-! ### Variants -/

/-- What values are equal within: integers and floats are told apart. -/
inductive Variant where
  | null | bool | int | float | string
deriving DecidableEq

def variant : Value → Variant
  | null => .null
  | bool _ => .bool
  | int _ => .int
  | float _ => .float
  | string _ => .string

theorem variant_eq_of_beq {a b : Value} (h : a == b) : a.variant = b.variant := by
  cases a <;> cases b <;> first | rfl | cases h

theorem comparesEqual_iff {a b : Value} : a.comparesEqual b ↔ a.compare? b = some .eq :=
  decide_eq_true_iff.trans related?_eq_iff

/-- Within a variant, comparing differs from equality only in NaN. -/
theorem comparesEqual_iff_beq {a b : Value} (h : a.variant = b.variant) :
    a.comparesEqual b ↔ a == b ∧ ¬ a.isFloatNaN := by
  rw [comparesEqual_iff]
  cases a with
  | null =>
    cases b with
    | null => decide
    | bool | int | float | string => cases h
  | bool p =>
    cases b with
    | bool q => simp [compare?, BEq.beq, alike, isFloatNaN]
    | null | int | float | string => cases h
  | int m =>
    cases b with
    | int n => simp [compare?, BEq.beq, alike, isFloatNaN, Int64.toInt_inj]
    | null | bool | float | string => cases h
  | float x =>
    cases b with
    | float y =>
      rw [isFloatNaN, Bool.not_eq_true]
      exact Binary64.compare?_eq_eq_iff_alike
    | null | bool | int | string => cases h
  | string s =>
    cases b with
    | string t => simp [compare?, BEq.beq, alike, isFloatNaN]
    | null | bool | int | float => cases h

end Value

end Lineup
