import Lineup.Proofs.Rule.Parts
import Lineup.Rule.Verdict

/-!
# Replacing the conditions of a rule

A pattern that matches a hand goes on to match when the hand is replaced by one in which no item
stops to hold a name or to meet a condition (`Pattern.matched_imp`). A rule gives the same verdict
on two hands in which its conditions hold alike and the names of its slots are held alike
(`Rule.matched_congr`). A rule whose conditions are replaced by others that hold in the same
contexts gives the same verdicts. So groups, which are conditions in parentheses that a program has
built, can be left out. Within a condition each term can be replaced by one that is found to be the
same.
-/

namespace Lineup

/-- A pattern is matched just if each of its slots finds its item. -/
theorem Pattern.matched_iff {o : BoolOrdering} {hand : List Properties} {p : Pattern} :
    p.matched o hand ↔ ∀ (i : Nat) (s : Slot), p[i]? = some s → s.found o hand i := by
  rw [matched, List.all_eq_true]
  constructor
  · intro h i s hs
    exact h (s, i) (List.mem_zipIdx_iff_getElem?.2 hs)
  · rintro h ⟨s, i⟩ hs
    exact h i s (List.mem_zipIdx_iff_getElem?.1 hs)

/-- Without a position a slot finds any item from its place on. -/
theorem Slot.found_of_position_none {o : BoolOrdering} {hand : List Properties} {i : Nat} {s : Slot}
    (hs : s.position = none) :
    s.found o hand i ↔ ∃ j, (i ≤ j ∧ j < hand.length) ∧ s.fits o hand j := by
  simp only [found, hs, List.any_eq_true, List.mem_range, Bool.and_eq_true, decide_eq_true_eq]
  constructor
  · rintro ⟨j, hj, hij, hfits⟩
    exact ⟨j, ⟨hij, hj⟩, hfits⟩
  · rintro ⟨j, ⟨hij, hj⟩, hfits⟩
    exact ⟨j, hj, hij, hfits⟩

/-! ### Two hands -/

theorem exists_getElem?_of_length_le {α β : Type} {A : List α} {B : List β}
    (h : A.length ≤ B.length) {j : Nat} {a : α} (ha : A[j]? = some a) : ∃ b, B[j]? = some b := by
  obtain ⟨hj, -⟩ := List.getElem?_eq_some_iff.1 ha
  exact ⟨B.get ⟨j, Nat.lt_of_lt_of_le hj h⟩, List.getElem?_eq_getElem _⟩

section Hands

variable {o o' : BoolOrdering} {A B : List Properties}

/-- An item that a slot asks for is asked for at its index in the other hand too. -/
theorem Slot.fits_imp (hlength : A.length ≤ B.length) {s : Slot} {j : Nat}
    (hname : ∀ a b, A[j]? = some a → B[j]? = some b → a.holdsString s.name → b.holdsString s.name)
    (hcondition : ∀ c ∈ s.constraint, ∀ a b, A[j]? = some a → B[j]? = some b →
      c.holds o ⟨a, some A, j⟩ → c.holds o' ⟨b, some B, j⟩) (hs : s.fits o A j) :
    s.fits o' B j := by
  rw [fits] at hs ⊢
  cases ha : A[j]? with
  | none => simp [ha] at hs
  | some a =>
    obtain ⟨b, hb⟩ := exists_getElem?_of_length_le hlength ha
    rw [ha] at hs
    rw [hb]
    obtain ⟨hheld, hholds⟩ := Bool.and_eq_true_iff.1 hs
    refine Bool.and_eq_true_iff.2 ⟨hname a b ha hb hheld, ?_⟩
    cases hc : s.constraint with
    | none => rfl
    | some c =>
      rw [hc] at hholds
      exact hcondition c hc a b ha hb hholds

theorem Slot.found_imp (hlength : A.length ≤ B.length) {s : Slot} {i : Nat}
    (hfits : ∀ j, s.fits o A j → s.fits o' B j) (hs : s.found o A i) : s.found o' B i := by
  cases hpos : s.position with
  | none =>
    rw [found_of_position_none hpos] at hs ⊢
    obtain ⟨j, ⟨hij, hj⟩, hfit⟩ := hs
    exact ⟨j, ⟨hij, Nat.lt_of_lt_of_le hj hlength⟩, hfits j hfit⟩
  | some pos =>
    simp only [found, hpos, Option.any_eq_true] at hs ⊢
    obtain ⟨j, hj, hfit⟩ := hs
    exact ⟨j, hj, hfits j hfit⟩

/-- A pattern that is matched goes on to be matched if no item stops to hold the name of a slot or
to meet a condition. -/
theorem Pattern.matched_imp (hlength : A.length ≤ B.length) {p : Pattern}
    (hname : ∀ n ∈ p.slotNames, ∀ (j : Nat) a b, A[j]? = some a → B[j]? = some b →
      a.holdsString n → b.holdsString n)
    (hcondition : ∀ c ∈ p.conditions, ∀ (j : Nat) a b, A[j]? = some a → B[j]? = some b →
      c.holds o ⟨a, some A, j⟩ → c.holds o' ⟨b, some B, j⟩) (hp : p.matched o A) :
    p.matched o' B := by
  rw [matched_iff] at hp ⊢
  intro i s hi
  have hs := List.mem_of_getElem? hi
  refine Slot.found_imp hlength (fun j => ?_) (hp i s hi)
  exact Slot.fits_imp hlength (hname s.name (List.mem_map_of_mem hs) j)
    fun c hc => hcondition c (mem_conditions hs hc) j

section

variable (hlength : A.length = B.length)
include hlength

theorem Pattern.matched_congr {p : Pattern}
    (hname : ∀ n ∈ p.slotNames, ∀ (j : Nat) a b, A[j]? = some a → B[j]? = some b →
      a.holdsString n = b.holdsString n)
    (hcondition : ∀ c ∈ p.conditions, ∀ (j : Nat) a b, A[j]? = some a → B[j]? = some b →
      c.holds o ⟨a, some A, j⟩ = c.holds o' ⟨b, some B, j⟩) :
    p.matched o A = p.matched o' B := by
  rw [Bool.eq_iff_iff]
  constructor
  · exact matched_imp (Nat.le_of_eq hlength)
      (fun n hn j a b ha hb => (Bool.eq_iff_iff.1 (hname n hn j a b ha hb)).1)
      fun c hc j a b ha hb => (Bool.eq_iff_iff.1 (hcondition c hc j a b ha hb)).1
  · exact matched_imp (Nat.le_of_eq hlength.symm)
      (fun n hn j b a hb ha => (Bool.eq_iff_iff.1 (hname n hn j a b ha hb)).2)
      fun c hc j b a hb ha => (Bool.eq_iff_iff.1 (hcondition c hc j a b ha hb)).2

/-- A rule gives the same verdict on two hands of one length if the items at each index hold the
same names of slots and meet the same conditions of the rule. -/
theorem Rule.matched_congr {r : Rule}
    (hname : ∀ n ∈ r.slotNames, ∀ (j : Nat) a b, A[j]? = some a → B[j]? = some b →
      a.holdsString n = b.holdsString n)
    (hcondition : ∀ c ∈ r.conditions, ∀ (j : Nat) a b, A[j]? = some a → B[j]? = some b →
      c.holds o ⟨a, some A, j⟩ = c.holds o' ⟨b, some B, j⟩) :
    r.matched o A = r.matched o' B := by
  cases r with
  | simple p => exact Pattern.matched_congr hlength hname hcondition
  | conditional c p q =>
    obtain ⟨hnp, hnq⟩ := List.forall_mem_append.1 hname
    obtain ⟨hc, hbranches⟩ := List.forall_mem_cons.1 hcondition
    obtain ⟨hcp, hcq⟩ := List.forall_mem_append.1 hbranches
    have hthen := Pattern.matched_congr hlength hnp hcp
    have helse : q.any (·.matched o A) = q.any (·.matched o' B) := by
      cases q with
      | none => rfl
      | some q =>
        rw [Option.toList_some, List.flatMap_singleton] at hnq hcq
        exact Pattern.matched_congr hlength hnq hcq
    cases A with
    | nil =>
      obtain rfl : B = [] := List.length_eq_zero_iff.1 hlength.symm
      rfl
    | cons a A =>
      cases B with
      | nil => cases hlength
      | cons b B =>
        have hfirst := hc 0 a b rfl rfl
        simp only [matched, hfirst, hthen, helse]

end

end Hands

/-! ### Replacing conditions -/

def Slot.mapCondition (f : Condition → Condition) (s : Slot) : Slot :=
  { s with constraint := s.constraint.map f }

def Pattern.mapConditions (f : Condition → Condition) (p : Pattern) : Pattern :=
  p.map (Slot.mapCondition f)

def Rule.mapConditions (f : Condition → Condition) : Rule → Rule
  | .simple p => .simple (p.mapConditions f)
  | .conditional c p q =>
    .conditional (f c) (p.mapConditions f) (q.map (Pattern.mapConditions f))

theorem Rule.conditions_mapConditions (f : Condition → Condition) (r : Rule) :
    (r.mapConditions f).conditions = r.conditions.map f := by
  have hslot : ∀ s : Slot, (s.mapCondition f).conditions = s.conditions.map f := by
    intro s
    cases h : s.constraint <;> simp [Slot.conditions, Slot.mapCondition, h]
  have hpattern : ∀ p : Pattern, (p.mapConditions f).conditions = p.conditions.map f := by
    intro p
    simp only [Pattern.conditions, Pattern.mapConditions, List.flatMap_map, List.map_flatMap, hslot]
  cases r with
  | simple p => exact hpattern p
  | conditional c p q =>
    simp only [mapConditions, conditions, List.map_cons, List.map_append, hpattern]
    cases q <;> simp [hpattern]

theorem Rule.mapConditions_eq_self {f : Condition → Condition} {r : Rule}
    (hf : ∀ c ∈ r.conditions, f c = c) : r.mapConditions f = r := by
  have hslot : ∀ s : Slot, (∀ c ∈ s.conditions, f c = c) → s.mapCondition f = s := by
    rintro ⟨n, c, p⟩ hf
    cases c with
    | none => rfl
    | some c => rw [Slot.mapCondition, Option.map_some, hf c List.mem_cons_self]
  have hpattern : ∀ p : Pattern, (∀ c ∈ p.conditions, f c = c) → p.mapConditions f = p := by
    intro p hf
    have hmap := List.map_congr_left fun s hs => hslot s (List.forall_mem_flatMap.1 hf s hs)
    exact hmap.trans (List.map_id' p)
  cases r with
  | simple p => rw [mapConditions, hpattern p hf]
  | conditional c p q =>
    rw [conditions, List.forall_mem_cons, List.forall_mem_append] at hf
    obtain ⟨hc, hp, hq⟩ := hf
    cases q with
    | none => rw [mapConditions, hc, hpattern p hp, Option.map_none]
    | some q =>
      rw [mapConditions, hc, hpattern p hp, Option.map_some, hpattern q (by simpa using hq)]

section Verdicts

variable {f : Condition → Condition} {o : BoolOrdering}
variable (hf : ∀ x c, (f c).holds o x = c.holds o x)
include hf

theorem Slot.fits_mapCondition (hand : List Properties) (s : Slot) (j : Nat) :
    (s.mapCondition f).fits o hand j = s.fits o hand j := by
  have hc : ∀ x c, holdsIfAny o x (Option.map f c) = holdsIfAny o x c := by
    intro x c
    cases c with
    | none => rfl
    | some c => exact hf x c
  simp only [fits, mapCondition, hc]

theorem Slot.found_mapCondition (hand : List Properties) (s : Slot) (i : Nat) :
    (s.mapCondition f).found o hand i = s.found o hand i := by
  have hfits : (s.mapCondition f).fits o hand = s.fits o hand :=
    funext (fits_mapCondition hf hand s)
  rw [found, found, hfits]
  rfl

theorem Pattern.matched_mapConditions (hand : List Properties) (p : Pattern) :
    (p.mapConditions f).matched o hand = p.matched o hand := by
  simp only [matched, mapConditions, List.zipIdx_map, List.all_map, Function.comp_def,
    Prod.map, Slot.found_mapCondition hf, id]

theorem Rule.matched_mapConditions (hand : List Properties) (r : Rule) :
    (r.mapConditions f).matched o hand = r.matched o hand := by
  cases r with
  | simple p => exact Pattern.matched_mapConditions hf hand p
  | conditional c p q =>
    cases hand with
    | nil => rfl
    | cons first hand =>
      have hq : (q.map (Pattern.mapConditions f)).any (·.matched o (first :: hand)) =
          q.any (·.matched o (first :: hand)) := by
        cases q with
        | none => rfl
        | some q => exact Pattern.matched_mapConditions hf _ q
      simp only [mapConditions, matched, hf, hq, Pattern.matched_mapConditions hf]

end Verdicts

theorem Rule.positions_mapConditions {f : Condition → Condition}
    (hf : ∀ c, (f c).positions = c.positions) (r : Rule) :
    (r.mapConditions f).positions = r.positions := by
  have hslot : ∀ s : Slot, (s.mapCondition f).positions = s.positions := by
    intro s
    simp only [Slot.positions, Slot.mapCondition]
    cases s.constraint with
    | none => rfl
    | some c => simp [hf]
  have hpattern : ∀ p : Pattern, (p.mapConditions f).positions = p.positions := by
    intro p
    simp only [Pattern.positions, Pattern.mapConditions, List.flatMap_map, hslot]
  cases r with
  | simple p => exact hpattern p
  | conditional c p q =>
    simp only [mapConditions, positions, hf, hpattern]
    cases q with
    | none => rfl
    | some q => simp [hpattern]

/-! ### Groups -/

/-- A condition in which what is in a group stands for the group. -/
def Condition.ungrouped : Condition → Condition
  | .comparison c => .comparison c
  | .group c => c.ungrouped
  | .join op l r => .join op l.ungrouped r.ungrouped

/-- A rule without groups that is otherwise the same. -/
def Rule.ungrouped (r : Rule) : Rule := r.mapConditions Condition.ungrouped

@[simp] theorem Condition.holds_ungrouped (o : BoolOrdering) (x : Context) (c : Condition) :
    c.ungrouped.holds o x = c.holds o x := by
  induction c with
  | comparison c => rfl
  | group c ih => exact ih
  | join op l r ihl ihr => simp only [ungrouped, holds, ihl, ihr]

theorem Condition.positions_ungrouped (c : Condition) : c.ungrouped.positions = c.positions := by
  induction c with
  | comparison c => rfl
  | group c ih => exact ih
  | join op l r ihl ihr => simp only [ungrouped, positions, ihl, ihr]

/-- Groups make no difference to a verdict. -/
theorem Rule.matched_ungrouped (o : BoolOrdering) (hand : List Properties) (r : Rule) :
    r.ungrouped.matched o hand = r.matched o hand :=
  matched_mapConditions (Condition.holds_ungrouped o) hand r

theorem Rule.fault?_ungrouped (r : Rule) : r.ungrouped.fault? = r.fault? := by
  rw [fault?_eq, fault?_eq, ungrouped, positions_mapConditions Condition.positions_ungrouped]

/-! ### Replacing terms -/

def Operand.mapTerm (f : Term → Term) : Operand → Operand
  | .term t => .term (f t)
  | v => v

def Comparison.mapTerms (f : Term → Term) (c : Comparison) : Comparison :=
  { c with subject := f c.subject, operand := c.operand.mapTerm f }

/-- A condition in which `f t` stands for each term `t`, on either side of a comparison. -/
def Condition.mapTerms (f : Term → Term) : Condition → Condition
  | .comparison c => .comparison (c.mapTerms f)
  | .group c => .group (c.mapTerms f)
  | .join op l r => .join op (l.mapTerms f) (r.mapTerms f)

section Terms

variable {f : Term → Term} {x y : Context}
variable (hsubject : ∀ t, x.subject? (f t) = y.subject? t)
variable (hoperand : ∀ t, x.operand? (f t) = y.operand? t)
include hsubject hoperand

theorem Comparison.holds_mapTerms (o : BoolOrdering) (c : Comparison) :
    (c.mapTerms f).holds o x = c.holds o y := by
  obtain ⟨t, r, v⟩ := c
  cases v with
  | term u => simp only [mapTerms, Operand.mapTerm, holds, hsubject, hoperand]
  | number | boolean | string => simp only [mapTerms, Operand.mapTerm, holds, hsubject]

/-- A condition holds where the condition that has other terms for the same properties does. -/
theorem Condition.holds_mapTerms (o : BoolOrdering) (c : Condition) :
    (c.mapTerms f).holds o x = c.holds o y := by
  induction c with
  | comparison c => exact Comparison.holds_mapTerms hsubject hoperand o c
  | group c ih => exact ih
  | join op l r ihl ihr => simp only [mapTerms, holds, ihl, ihr]

end Terms

end Lineup
