import Lineup.Properties

/-!
# What property maps hold

Since no name is repeated, an entry of a map is what the map holds under its name, and a map is the
one that its entries make.
-/

namespace Lineup

namespace Properties

theorem lookup_eq_some_iff {l : List (String × Value)} (h : l.Pairwise (·.1 < ·.1)) {k : String}
    {v : Value} : l.lookup k = some v ↔ (k, v) ∈ l := by
  induction l with
  | nil => simp
  | cons a l ih =>
    obtain ⟨k', v'⟩ := a
    obtain ⟨hlt, hl⟩ := List.pairwise_cons.1 h
    rw [List.lookup_cons, List.mem_cons, ← ih hl]
    by_cases hk : k = k'
    · subst hk
      have hnone : l.lookup k ≠ some v := fun he =>
        String.lt_irrefl k (hlt (k, v) ((ih hl).1 he))
      simp [hnone, eq_comm]
    · simp [hk, beq_eq_false_iff_ne.2 hk]

theorem get?_eq_some_iff {p : Properties} {k : String} {v : Value} :
    p.get? k = some v ↔ (k, v) ∈ p.entries :=
  lookup_eq_some_iff p.ascending

theorem keys_ascending (p : Properties) : p.keys.Pairwise (· < ·) := List.pairwise_map.2 p.ascending

theorem holdsString_iff {p : Properties} {s : String} :
    p.holdsString s ↔ ∃ k, p.get? k = some (.string s) := by
  have hstring : ∀ v : Value, v.asString? = some s ↔ v = .string s := by
    intro v
    cases v <;> simp [Value.asString?]
  simp only [holdsString, values, List.any_map, List.any_eq_true, Function.comp_apply,
    decide_eq_true_eq, hstring, get?_eq_some_iff]
  constructor
  · rintro ⟨⟨k, v⟩, hmem, rfl⟩
    exact ⟨k, hmem⟩
  · rintro ⟨k, hmem⟩
    exact ⟨_, hmem, rfl⟩

theorem present?_eq_some_iff {p : Properties} {k : String} {v : Value} :
    p.present? k = some v ↔ p.get? k = some v ∧ v ≠ .null := by
  rw [present?, Option.filter_eq_some_iff]
  cases v <;> simp [Value.isNull]

theorem present?_eq_none_iff {p : Properties} {k : String} :
    p.present? k = none ↔ ∀ v, p.get? k = some v → v = .null := by
  simp only [Option.eq_none_iff_forall_ne_some, ne_eq, present?_eq_some_iff, not_and,
    Classical.not_not]

/-! ### Entries -/

theorem putEntry_of_lt {k : String} {v : Value} {l : List (String × Value)}
    (h : ∀ e ∈ l, e.1 < k) : putEntry k v l = l ++ [(k, v)] := by
  induction l with
  | nil => rfl
  | cons a l ih =>
    obtain ⟨ha, hl⟩ := List.forall_mem_cons.1 h
    have hne : k ≠ a.1 := fun he => String.lt_irrefl k (he ▸ ha)
    rw [putEntry, if_neg (String.lt_asymm ha), if_neg hne, ih hl, List.cons_append]

/-- What comes behind all entries is inserted there. -/
theorem entries_insertMany {l : List (String × Value)} {p : Properties}
    (h : (p.entries ++ l).Pairwise (·.1 < ·.1)) : (p.insertMany l).entries = p.entries ++ l := by
  induction l generalizing p with
  | nil => exact (List.append_nil _).symm
  | cons e l ih =>
    have hput : (p.insert e.1 e.2).entries = p.entries ++ [e] :=
      putEntry_of_lt fun a ha => (List.pairwise_append.1 h).2.2 a ha e List.mem_cons_self
    have hl : ((p.insert e.1 e.2).entries ++ l).Pairwise (·.1 < ·.1) := by
      rwa [hput, List.append_assoc]
    have htail := ih hl
    rwa [hput, List.append_assoc] at htail

theorem ofList_entries (p : Properties) : ofList p.entries = p :=
  ext (entries_insertMany p.ascending)

end Properties

/-! ### Finite values -/

/-- Whether a value is no float that is infinite or NaN. -/
def Value.isFinite : Value → Bool
  | float x => x.isFinite
  | _ => true

/-- Says that every float among the properties is finite. -/
def Properties.Finite (p : Properties) : Prop := ∀ v ∈ p.values, v.isFinite

instance (p : Properties) : Decidable p.Finite := inferInstanceAs (Decidable (∀ v ∈ p.values, _))

theorem Properties.Finite.get? {p : Properties} (h : p.Finite) {k : String} {v : Value}
    (hv : p.get? k = some v) : v.isFinite :=
  h v (List.mem_map_of_mem (get?_eq_some_iff.1 hv))

end Lineup
