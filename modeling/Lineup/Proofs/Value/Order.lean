import Lineup.Proofs.Relation
import Lineup.Proofs.Value

/-!
# The order of values

Two values can be compared if they are of one kind and neither is NaN, whatever the relation is
(`Value.related?_eq_none_iff`). Integers are compared exactly with each other and rounded with
floats, so values that are equal to the same one need not be equal to each other. But rounding never
turns an order around, so `<` is transitive all the same, whichever of the values are integers, and
equal values are on no different sides of a third one (`Value.related?_coherent`).
-/

namespace Lineup.Value

/-! ### Kinds -/

/-- What values are compared within. -/
inductive Kind where
  | nothing | truth | number | text
deriving DecidableEq

def kind : Value → Kind
  | null => .nothing
  | bool _ => .truth
  | int _ | float _ => .number
  | string _ => .text

/-- Whether a value is a float that is NaN. -/
def isFloatNaN : Value → Bool
  | float x => x.isNaN
  | _ => false

theorem related?_eq_none {r : Relation} {a b : Value} :
    a.related? r b = none ↔ a.compare? b = none :=
  Option.map_eq_none_iff

theorem decide_related? (r : Relation) (a v : Value) :
    decide (a.related? r v = some true) = (a.compare? v).any r.holds := by
  cases h : a.compare? v <;> simp [related?, h]

/-- Values can be compared unless their kinds differ or one of them is NaN. -/
theorem compare?_eq_none_iff {a b : Value} :
    a.compare? b = none ↔ a.kind ≠ b.kind ∨ a.isFloatNaN ∨ b.isFloatNaN := by
  cases a with
  | null | bool | string => cases b <;> simp [compare?, kind, isFloatNaN]
  | int m =>
    cases b with
    | null | bool | int | string => simp [compare?, kind, isFloatNaN]
    | float y =>
      rw [compare?, Binary64.compare?_eq_none_iff, Binary64.isNaN_ofInt]
      simp [kind, isFloatNaN]
  | float x =>
    cases b with
    | null | bool | string => simp [compare?, kind, isFloatNaN]
    | int n =>
      rw [compare?, Binary64.compare?_eq_none_iff, Binary64.isNaN_ofInt]
      simp [kind, isFloatNaN]
    | float y =>
      rw [compare?, Binary64.compare?_eq_none_iff]
      simp [kind, isFloatNaN]

theorem comparable_of_compare? {a b : Value} {p : Ordering} (h : a.compare? b = some p) :
    a.kind = b.kind ∧ a.isFloatNaN = false ∧ b.isFloatNaN = false := by
  have hsome : a.compare? b ≠ none := h ▸ nofun
  rw [ne_eq, compare?_eq_none_iff, not_or, not_or] at hsome
  obtain ⟨hsame, ha, hb⟩ := hsome
  exact ⟨not_not.1 hsame, Bool.eq_false_iff.2 ha, Bool.eq_false_iff.2 hb⟩

theorem compare?_swap (a b : Value) : b.compare? a = (a.compare? b).map Ordering.swap := by
  cases a with
  | null => cases b <;> rfl
  | bool p =>
    cases b with
    | bool q => exact congrArg some Std.OrientedOrd.eq_swap
    | null | int | float | string => rfl
  | int m =>
    cases b with
    | int n => exact congrArg some Std.OrientedOrd.eq_swap
    | float y => exact Binary64.compare?_swap _ y
    | null | bool | string => rfl
  | float x =>
    cases b with
    | int n => exact x.compare?_swap _
    | float y => exact x.compare?_swap y
    | null | bool | string => rfl
  | string s =>
    cases b with
    | string t => exact congrArg some Std.OrientedOrd.eq_swap
    | null | bool | int | float => rfl

theorem related?_converse (r : Relation) (a b : Value) :
    a.related? r b = b.related? r.converse a := by
  rw [related?, related?, compare?_swap a b, Option.map_map]
  congr 1
  funext p
  rw [Function.comp_apply, Relation.holds_converse, Ordering.swap_swap]

theorem related?_ofOrdering_iff {p : Ordering} {a b : Value} :
    a.related? (.ofOrdering p) b = some true ↔ a.compare? b = some p := by
  rw [related?]
  cases a.compare? b with
  | none => simp
  | some q => cases p <;> cases q <;> decide

theorem related?_lt_iff {a b : Value} : a.related? .lt b = some true ↔ a.compare? b = some .lt :=
  related?_ofOrdering_iff (p := .lt)

theorem related?_eq_iff {a b : Value} : a.related? .eq b = some true ↔ a.compare? b = some .eq :=
  related?_ofOrdering_iff (p := .eq)

theorem not_compare?_self_lt (a : Value) : a.compare? a ≠ some .lt := by
  intro h
  have hswap := compare?_swap a a
  rw [h] at hswap
  cases hswap

/-! ### Numbers -/

/-- The place of a number among floats, to which integers are rounded. -/
def rank? : Value → Option Int
  | int n => some (Binary64.ofInt n.toInt).key
  | float x => if x.isNaN then none else some x.key
  | null | bool _ | string _ => none

theorem rank_int {n : Int64} {x : Int} (h : (int n).rank? = some x) :
    x = (Binary64.ofInt n.toInt).key :=
  (Option.some.inj h).symm

theorem rank_float {u : Binary64} {x : Int} (h : (float u).rank? = some x) :
    u.isNaN = false ∧ x = u.key := by
  simp only [rank?] at h
  split at h
  · cases h
  · rename_i hnan
    exact ⟨Bool.eq_false_iff.2 hnan, (Option.some.inj h).symm⟩

theorem exists_rank {a : Value} (hkind : a.kind = .number) (hnan : a.isFloatNaN = false) :
    ∃ x, a.rank? = some x := by
  cases a with
  | null | bool | string => cases hkind
  | int n => exact ⟨_, rfl⟩
  | float x => exact ⟨x.key, if_neg (Bool.eq_false_iff.1 hnan)⟩

/-- What can be compared with a number is a number, and neither is NaN. -/
theorem exists_ranks {a b : Value} {p : Ordering} (hkind : a.kind = .number)
    (h : a.compare? b = some p) :
    b.kind = .number ∧ ∃ x y, a.rank? = some x ∧ b.rank? = some y := by
  obtain ⟨hsame, ha, hb⟩ := comparable_of_compare? h
  have hkind' := hsame.symm.trans hkind
  obtain ⟨x, hx⟩ := exists_rank hkind ha
  obtain ⟨y, hy⟩ := exists_rank hkind' hb
  exact ⟨hkind', x, y, hx, hy⟩

section

variable {a b c : Value} {x y z : Int}

/-- Numbers are compared by their ranks unless both of them are integers. -/
theorem compare?_of_rank (ha : a.rank? = some x) (hb : b.rank? = some y) :
    (∃ m n, a = int m ∧ b = int n) ∨ a.compare? b = some (compare x y) := by
  cases a with
  | null | bool | string => cases ha
  | int m =>
    rw [rank_int ha]
    cases b with
    | null | bool | string => cases hb
    | int n => exact .inl ⟨m, n, rfl, rfl⟩
    | float v =>
      obtain ⟨hv, rfl⟩ := rank_float hb
      exact .inr (by simp [compare?, Binary64.compare?, Binary64.isNaN_ofInt, hv])
  | float u =>
    obtain ⟨hu, rfl⟩ := rank_float ha
    cases b with
    | null | bool | string => cases hb
    | int n =>
      rw [rank_int hb]
      exact .inr (by simp [compare?, Binary64.compare?, Binary64.isNaN_ofInt, hu])
    | float v =>
      obtain ⟨hv, rfl⟩ := rank_float hb
      exact .inr (by simp [compare?, Binary64.compare?, hu, hv])

theorem rank_le_of_lt (ha : a.rank? = some x) (hb : b.rank? = some y)
    (h : a.compare? b = some .lt) : x ≤ y := by
  rcases compare?_of_rank ha hb with ⟨m, n, rfl, rfl⟩ | hcompare
  · have hlt : m.toInt < n.toInt := Int.compare_eq_lt.1 (Option.some.inj h)
    rw [rank_int ha, rank_int hb]
    exact Binary64.key_ofInt_le hlt.le
  · rw [hcompare] at h
    exact (Int.compare_eq_lt.1 (Option.some.inj h)).le

/-- Numbers of which neither has the smaller rank are only exactly in order, as integers. -/
theorem ints_of_lt (ha : a.rank? = some x) (hb : b.rank? = some y)
    (h : a.compare? b = some .lt) (hxy : y ≤ x) :
    ∃ m n : Int64, a = int m ∧ b = int n ∧ m.toInt < n.toInt := by
  rcases compare?_of_rank ha hb with ⟨m, n, rfl, rfl⟩ | hcompare
  · exact ⟨m, n, rfl, rfl, Int.compare_eq_lt.1 (Option.some.inj h)⟩
  · rw [hcompare] at h
    exact absurd (Int.compare_eq_lt.1 (Option.some.inj h)) (not_lt.2 hxy)

theorem lt_of_rank_lt (ha : a.rank? = some x) (hb : b.rank? = some y) (h : x < y) :
    a.compare? b = some .lt := by
  rcases compare?_of_rank ha hb with ⟨m, n, rfl, rfl⟩ | hcompare
  · rw [rank_int ha, rank_int hb] at h
    have hlt : m.toInt < n.toInt := by
      by_contra hle
      exact absurd (Binary64.key_ofInt_le (not_lt.1 hle)) (not_le.2 h)
    exact congrArg some (Int.compare_eq_lt.2 hlt)
  · rw [hcompare, Int.compare_eq_lt.2 h]

theorem rank_eq_of_eq (ha : a.rank? = some x) (hb : b.rank? = some y)
    (h : a.compare? b = some .eq) : x = y := by
  rcases compare?_of_rank ha hb with ⟨m, n, rfl, rfl⟩ | hcompare
  · have heq : m.toInt = n.toInt := Int.compare_eq_eq.1 (Option.some.inj h)
    rw [rank_int ha, rank_int hb, heq]
  · rw [hcompare] at h
    exact Int.compare_eq_eq.1 (Option.some.inj h)

/-- Where the ranks settle nothing, all three numbers are integers. -/
theorem lt_trans_of_rank (ha : a.rank? = some x) (hb : b.rank? = some y) (hc : c.rank? = some z)
    (hab : a.compare? b = some .lt) (hbc : b.compare? c = some .lt) :
    a.compare? c = some .lt := by
  have hxy := rank_le_of_lt ha hb hab
  have hyz := rank_le_of_lt hb hc hbc
  rcases (hxy.trans hyz).lt_or_eq with hlt | heq
  · exact lt_of_rank_lt ha hc hlt
  · obtain ⟨m, n, rfl, rfl, hmn⟩ := ints_of_lt ha hb hab (heq ▸ hyz)
    obtain ⟨n', k, hn, rfl, hnk⟩ := ints_of_lt hb hc hbc (heq ▸ hxy)
    cases hn
    exact congrArg some (Int.compare_eq_lt.2 (hmn.trans hnk))

theorem not_lt_of_rank (ha : a.rank? = some x) (hb : b.rank? = some y) (hc : c.rank? = some z)
    (hab : a.compare? b = some .lt) (hbc : b.compare? c = some .eq) :
    c.compare? a ≠ some .lt := by
  intro hca
  have hxy := rank_le_of_lt ha hb hab
  have hyz := rank_eq_of_eq hb hc hbc
  have hzx := rank_le_of_lt hc ha hca
  obtain ⟨m, n, rfl, rfl, hmn⟩ := ints_of_lt ha hb hab (hyz ▸ hzx)
  obtain ⟨k, m', rfl, hm, hkm⟩ := ints_of_lt hc ha hca (hyz ▸ hxy)
  cases hm
  have hnk : n.toInt = k.toInt := Int.compare_eq_eq.1 (Option.some.inj hbc)
  omega

end

/-! ### Three values -/

theorem compare?_lt_trans {a b c : Value} (hab : a.compare? b = some .lt)
    (hbc : b.compare? c = some .lt) : a.compare? c = some .lt := by
  cases a with
  | null => cases b <;> cases hab
  | bool p =>
    cases b with
    | bool q =>
      cases c with
      | bool r =>
        exact congrArg some (Std.TransCmp.lt_trans (Option.some.inj hab) (Option.some.inj hbc))
      | null | int | float | string => cases hbc
    | null | int | float | string => cases hab
  | string s =>
    cases b with
    | string t =>
      cases c with
      | string u =>
        exact congrArg some (Std.TransCmp.lt_trans (Option.some.inj hab) (Option.some.inj hbc))
      | null | bool | int | float => cases hbc
    | null | bool | int | float => cases hab
  | int | float =>
    obtain ⟨hb, x, y, hx, hy⟩ := exists_ranks rfl hab
    obtain ⟨-, -, z, -, hz⟩ := exists_ranks hb hbc
    exact lt_trans_of_rank hx hy hz hab hbc

/-- Only numbers compare equal without being the same. -/
theorem eq_of_compare?_eq {a b : Value} (hkind : a.kind ≠ .number) (h : a.compare? b = some .eq) :
    a = b := by
  cases a with
  | null =>
    cases b with
    | null => rfl
    | bool | int | float | string => cases h
  | bool p =>
    cases b with
    | bool q => exact congrArg bool (Std.LawfulEqCmp.eq_of_compare (Option.some.inj h))
    | null | int | float | string => cases h
  | string s =>
    cases b with
    | string t => exact congrArg string (Std.LawfulEqCmp.eq_of_compare (Option.some.inj h))
    | null | bool | int | float => cases h
  | int | float => exact absurd rfl hkind

/-- What is above one of two equal values is not below the other. -/
theorem not_lt_of_lt_of_eq {a b c : Value} (hab : a.compare? b = some .lt)
    (hbc : b.compare? c = some .eq) : c.compare? a ≠ some .lt := by
  intro hca
  by_cases hkind : a.kind = .number
  · obtain ⟨hb, x, y, hx, hy⟩ := exists_ranks hkind hab
    obtain ⟨-, -, z, -, hz⟩ := exists_ranks hb hbc
    exact not_lt_of_rank hx hy hz hab hbc hca
  · have hkind' : b.kind ≠ .number := (comparable_of_compare? hab).1 ▸ hkind
    obtain rfl := eq_of_compare?_eq hkind' hbc
    exact not_compare?_self_lt a (compare?_lt_trans hab hca)

/-- **Comparing values is coherent**: the six relations can be asked of the same pairs, and they
hang together as those of ordered things do; a pair can be turned around. Two integers are compared
exactly and an integer is rounded to the nearest float only to be compared with a float. All the
same `<` is a strict order, and what is above one of two equal values is not below the other. -/
theorem related?_coherent (a b c : Value) :
    ((∀ r, a.related? r b = none) ∨ ∀ r, ∃ h, a.related? r b = some h) ∧
      (∀ r, a.related? r b = b.related? r.converse a) ∧
      (∀ r, a.related? r b ≠ none → Relation.Ordered fun s => a.related? s b = some true) ∧
      (∀ r, a.related? r b = none ↔ a.kind ≠ b.kind ∨ a.isFloatNaN ∨ b.isFloatNaN) ∧
      (∀ (m n : Int64) r,
        (int m).related? r (int n) = some (r.holds (compare m.toInt n.toInt))) ∧
      (∀ (m : Int64) x r,
        (int m).related? r (float x) = (float (.ofInt m.toInt)).related? r (float x) ∧
          (Binary64.ofInt m.toInt).negative = decide (m.toInt < 0) ∧
          Binary64.IsNearest m.toInt.natAbs (Binary64.ofInt m.toInt).magnitude) ∧
      a.related? .lt a ≠ some true ∧
      (a.related? .lt b = some true → b.related? .lt c = some true →
        a.related? .lt c = some true) ∧
      (a.related? .lt b = some true → b.related? .eq c = some true →
        c.related? .lt a ≠ some true) := by
  simp only [ne_eq, related?_lt_iff, related?_eq_iff, related?_eq_none]
  refine ⟨?_, fun r => related?_converse r a b, fun _ h => ?_, fun _ => compare?_eq_none_iff,
    fun _ _ _ => rfl, fun m _ _ => ⟨rfl, Binary64.negative_ofInt _, Binary64.isNearest_ofInt _⟩,
    not_compare?_self_lt a, compare?_lt_trans, not_lt_of_lt_of_eq⟩
  · cases h : a.compare? b with
    | none => exact .inl fun _ => rfl
    | some p => exact .inr fun r => ⟨r.holds p, by rw [related?, h, Option.map_some]⟩
  · obtain ⟨p, hp⟩ := Option.ne_none_iff_exists'.1 h
    simp only [decide_related?, hp, Option.any_some]
    exact Relation.ordered_holds p

/-- The integer above 2^53 rounds down to it: it is equal to that float and still above the integer
2^53, which is therefore not above the float. -/
theorem related?_coherent_rounded :
    (int 9007199254740992).related? .lt (int 9007199254740993) = some true ∧
      (int 9007199254740993).related? .eq (float (.ofInt 9007199254740992)) = some true ∧
      (float (.ofInt 9007199254740992)).related? .lt (int 9007199254740992) ≠ some true ∧
      (int 9007199254740993).related? .lt (float (.ofInt 9007199254740994)) = some true ∧
      (int 9007199254740992).related? .lt (float (.ofInt 9007199254740994)) = some true ∧
      Relation.Ordered fun s =>
        (int 9007199254740992).related? s (int 9007199254740993) = some true := by
  have hlt : (int 9007199254740992).related? .lt (int 9007199254740993) = some true := by
    decide +kernel
  have heq : (int 9007199254740993).related? .eq (float (.ofInt 9007199254740992)) = some true := by
    decide +kernel
  have hlt' :
      (int 9007199254740993).related? .lt (float (.ofInt 9007199254740994)) = some true := by
    decide +kernel
  obtain ⟨-, -, hordered, -, -, -, -, -, hbelow⟩ := related?_coherent (int 9007199254740992)
    (int 9007199254740993) (float (.ofInt 9007199254740992))
  obtain ⟨-, -, -, -, -, -, -, htrans, -⟩ := related?_coherent (int 9007199254740992)
    (int 9007199254740993) (float (.ofInt 9007199254740994))
  exact ⟨hlt, heq, hbelow hlt heq, hlt', htrans hlt hlt', hordered .lt (hlt ▸ nofun)⟩

end Lineup.Value
