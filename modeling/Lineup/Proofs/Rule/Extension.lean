import Lineup.Proofs.Properties
import Lineup.Proofs.Rule.Conditions

/-!
# Verdicts on extended hands

A hand is extended by putting items at its end and by giving items properties that they did not
have, or that were null. Everything that is found in a hand is found in the extended hand and is
the same there, so what a comparison finds to hold goes on to hold (`Condition.holds_of_extends`)
and what a slot asks for is still there. Only the branch of a rule that its condition rules out can
stop to match. What is not found makes nothing hold: not a comparison, by whatever relation
(`Comparison.holds_of_unresolved`), and not a slot (`Slot.found_of_outside`).
-/

namespace Lineup

/-- Says that `q` holds every value of `p` that is not null, under the same name. -/
def Properties.Extends (q p : Properties) : Prop :=
  ∀ k v, p.get? k = some v → v ≠ .null → q.get? k = some v

/-- Says that `B` is at least as long as `A` and that each item of `A` is extended by the one at
its index in `B`. -/
structure HandExtends (B A : List Properties) : Prop where
  length_le : A.length ≤ B.length
  items : ∀ (j : Nat) (p q : Properties), A[j]? = some p → B[j]? = some q → q.Extends p

namespace Properties.Extends

variable {p q : Properties}

/-- To give an item a property that it did not have is to extend it. -/
theorem insert {k : String} {v : Value} (h : ∀ w, p.get? k = some w → w = .null) :
    (p.insert k v).Extends p := by
  intro k' w hw hne
  rw [get?_insert]
  split
  · rename_i hk
    exact absurd (h w (hk ▸ hw)) hne
  · exact hw

theorem present? (h : q.Extends p) {k : String} {v : Value} (hv : p.present? k = some v) :
    q.present? k = some v := by
  rw [present?_eq_some_iff] at hv ⊢
  exact ⟨h k v hv.1 hv.2, hv.2⟩

theorem holdsString (h : q.Extends p) {s : String} (hs : p.holdsString s) : q.holdsString s := by
  obtain ⟨k, hk⟩ := holdsString_iff.1 hs
  exact holdsString_iff.2 ⟨k, h k _ hk nofun⟩

end Properties.Extends

section Hands

variable {A B : List Properties} {p q : Properties} {o : BoolOrdering} {i j : Nat}

theorem HandExtends.getElem? (h : HandExtends B A) (hp : A[j]? = some p) :
    ∃ q, B[j]? = some q ∧ q.Extends p := by
  obtain ⟨q, hq⟩ := exists_getElem?_of_length_le h.length_le hp
  exact ⟨q, hq, h.items j p q hp hq⟩

/-! ### Conditions -/

theorem Context.itemAt?_of_extends (h : HandExtends B A) {pos : Position} {a : Properties}
    (ha : Context.itemAt? ⟨p, some A, j⟩ pos = some a) :
    ∃ b, Context.itemAt? ⟨q, some B, j⟩ pos = some b ∧ b.Extends a := by
  simp only [itemAt?, Option.bind_eq_bind, Option.bind_some, Option.bind_eq_some_iff] at ha
  obtain ⟨i, hi, ha⟩ := ha
  obtain ⟨b, hb, hba⟩ := h.getElem? ha
  refine ⟨b, ?_, hba⟩
  simp only [itemAt?, Option.bind_eq_bind, Option.bind_some, hi, hb]

theorem Context.subject?_of_extends (h : HandExtends B A) (hpq : q.Extends p) {t : Term}
    {v : Value} (hv : Context.subject? ⟨p, some A, j⟩ t = some v) :
    Context.subject? ⟨q, some B, j⟩ t = some v := by
  simp only [subject?, Option.bind_eq_some_iff] at hv ⊢
  obtain ⟨a, ha, hv⟩ := hv
  cases hpos : t.position with
  | none =>
    rw [hpos, subjectItem?] at ha
    cases ha
    exact ⟨q, rfl, hpq.present? hv⟩
  | some pos =>
    rw [hpos] at ha
    obtain ⟨b, hb, hba⟩ := itemAt?_of_extends h ha
    exact ⟨b, hb, hba.present? hv⟩

theorem Context.operand?_of_extends (h : HandExtends B A) {t : Term} {v : Value}
    (hv : Context.operand? ⟨p, some A, j⟩ t = some v) :
    Context.operand? ⟨q, some B, j⟩ t = some v := by
  simp only [operand?, Option.bind_eq_some_iff] at hv ⊢
  obtain ⟨a, ha, hv⟩ := hv
  cases hpos : t.position with
  | none =>
    rw [hpos] at ha
    obtain ⟨b, hb, hba⟩ := h.getElem? ha
    exact ⟨b, hb, hba.present? hv⟩
  | some pos =>
    rw [hpos] at ha
    obtain ⟨b, hb, hba⟩ := itemAt?_of_extends h ha
    exact ⟨b, hb, hba.present? hv⟩

theorem Comparison.holds_of_extends (h : HandExtends B A) (hpq : q.Extends p) {c : Comparison}
    (hc : c.holds o ⟨p, some A, j⟩) : c.holds o ⟨q, some B, j⟩ := by
  rw [holds] at hc ⊢
  cases hv : Context.subject? ⟨p, some A, j⟩ c.subject with
  | none => simp [hv] at hc
  | some v =>
    rw [Context.subject?_of_extends h hpq hv]
    rw [hv] at hc
    cases ho : c.operand with
    | term t =>
      simp only [ho, Option.any_eq_true] at hc ⊢
      obtain ⟨w, hw, hvw⟩ := hc
      exact ⟨w, Context.operand?_of_extends h hw, hvw⟩
    | number y => simpa only [ho] using hc
    | boolean b => simpa only [ho] using hc
    | string s => simpa only [ho] using hc

theorem Connective.apply_mono {op : Connective} {a a' b b' : Bool} (ha : a → a') (hb : b → b')
    (h : op.apply a b) : op.apply a' b' := by
  cases op with
  | and =>
    obtain ⟨h₁, h₂⟩ := Bool.and_eq_true_iff.1 h
    exact Bool.and_eq_true_iff.2 ⟨ha h₁, hb h₂⟩
  | or => exact Bool.or_eq_true_iff.2 ((Bool.or_eq_true_iff.1 h).imp ha hb)

theorem Condition.holds_of_extends (h : HandExtends B A) (hpq : q.Extends p) {c : Condition}
    (hc : c.holds o ⟨p, some A, j⟩) : c.holds o ⟨q, some B, j⟩ := by
  induction c with
  | comparison c => exact Comparison.holds_of_extends h hpq hc
  | group c ih => exact ih hc
  | join op l r ihl ihr => exact Connective.apply_mono ihl ihr hc

end Hands

/-! ### Rules -/

/-- Whether the condition of a rule, if it has one, holds at the first item. -/
def Rule.conditionHolds (o : BoolOrdering) (hand : List Properties) : Rule → Bool
  | .simple _ => true
  | .conditional c _ _ => hand.head?.any fun first => c.holds o ⟨first, some hand, 0⟩

/-- A rule whose condition does not fail goes on to match if no item stops to hold the name of a
slot or to meet a condition. -/
theorem Rule.matched_imp {o o' : BoolOrdering} {A B : List Properties}
    (hlength : A.length ≤ B.length) {r : Rule}
    (hname : ∀ n ∈ r.slotNames, ∀ (j : Nat) a b, A[j]? = some a → B[j]? = some b →
      a.holdsString n → b.holdsString n)
    (hcondition : ∀ c ∈ r.conditions, ∀ (j : Nat) a b, A[j]? = some a → B[j]? = some b →
      c.holds o ⟨a, some A, j⟩ → c.holds o' ⟨b, some B, j⟩)
    (hc : r.conditionHolds o A) (hr : r.matched o A) : r.matched o' B := by
  cases r with
  | simple p => exact Pattern.matched_imp hlength hname hcondition hr
  | conditional c p q =>
    obtain ⟨hnp, -⟩ := List.forall_mem_append.1 hname
    obtain ⟨hfirst, hbranches⟩ := List.forall_mem_cons.1 hcondition
    obtain ⟨hcp, -⟩ := List.forall_mem_append.1 hbranches
    cases A with
    | nil => cases hr
    | cons a A =>
      cases B with
      | nil => cases hlength
      | cons b B =>
        have hcA : c.holds o ⟨a, some (a :: A), 0⟩ := hc
        have hcB := hfirst 0 a b rfl rfl hcA
        rw [matched, if_pos hcA] at hr
        rw [matched, if_pos hcB]
        exact Pattern.matched_imp hlength hnp hcp hr

theorem Rule.matched_of_extends {A B : List Properties} (h : HandExtends B A) {o : BoolOrdering}
    {r : Rule} (hc : r.conditionHolds o A) (hr : r.matched o A) : r.matched o B := by
  refine matched_imp h.length_le (fun n _ j a b ha hb hn => ?_) (fun c _ j a b ha hb hholds => ?_)
    hc hr
  · exact (h.items j a b ha hb).holdsString hn
  · exact Condition.holds_of_extends h (h.items j a b ha hb) hholds

/-- Without another pattern a rule matches only if its condition holds. -/
theorem Rule.conditionHolds_of_matched {A : List Properties} {o : BoolOrdering} {c : Condition}
    {p : Pattern} (hr : (Rule.conditional c p none).matched o A) :
    (Rule.conditional c p none).conditionHolds o A := by
  cases A with
  | nil => cases hr
  | cons a A =>
    rw [matched] at hr
    split at hr
    · assumption
    · cases hr

/-- **Verdicts are monotone in information**: a rule that matches a hand matches each extension of
the hand, unless its condition fails and it matches by its other pattern. A condition that holds at
an item of the hand holds at the item with the same index in the extension. -/
theorem Rule.matched_mono {A B : List Properties} (h : HandExtends B A) (o : BoolOrdering) :
    (∀ r : Rule, r.matched o A → r.conditionHolds o A → r.matched o B) ∧
      (∀ c p, (Rule.conditional c p none).matched o A →
        (Rule.conditional c p none).conditionHolds o A) ∧
      ∀ (j : Nat) (p q : Properties), A[j]? = some p → B[j]? = some q → ∀ c : Condition,
        c.holds o ⟨p, some A, j⟩ → c.holds o ⟨q, some B, j⟩ := by
  refine ⟨fun r hr hc => matched_of_extends h hc hr, fun c p => conditionHolds_of_matched, ?_⟩
  intro j p q hp hq c hc
  exact Condition.holds_of_extends h (h.items j p q hp hq) hc

/-- A null is replaced by a value and an item is added. -/
theorem Rule.matched_mono_seven :
    HandExtends
        [.ofList [("name", .string "seven"), ("rank", .int 7), ("suit", .string "heart")], .empty]
        [.ofList [("name", .string "seven"), ("rank", .int 7), ("suit", .null)]] ∧
      (Rule.conditional (.comparison ⟨⟨"rank", none⟩, .gt, .number ⟨0x4014000000000000⟩⟩)
        [⟨"seven", some (.comparison ⟨⟨"rank", none⟩, .ne, .string "8"⟩), none⟩] none).matched
        .reject
        [.ofList [("name", .string "seven"), ("rank", .int 7), ("suit", .string "heart")],
          .empty] := by
  have hextends : HandExtends
      [.ofList [("name", .string "seven"), ("rank", .int 7), ("suit", .string "heart")], .empty]
      [.ofList [("name", .string "seven"), ("rank", .int 7), ("suit", .null)]] := by
    refine ⟨by decide, ?_⟩
    rintro (_ | j) p q hp hq
    · obtain rfl := Option.some.inj hp
      obtain rfl := Option.some.inj hq
      have hinsert : Properties.ofList
            [("name", .string "seven"), ("rank", .int 7), ("suit", .string "heart")] =
          (Properties.ofList [("name", .string "seven"), ("rank", .int 7), ("suit", .null)]).insert
            "suit" (.string "heart") := rfl
      rw [hinsert]
      exact .insert fun w hw => (Option.some.inj hw).symm
    · cases hp
  refine ⟨hextends, (Rule.matched_mono hextends .reject).1 _ ?_ ?_⟩
  · decide +kernel
  · decide +kernel

/-! ### What is not found -/

section Unresolved

variable {x : Context} {o : BoolOrdering} {hand : List Properties}

/-- A position stands for no item if there is no hand or its index is not one of the hand. -/
theorem Context.itemAt?_eq_none_iff {p : Position} : x.itemAt? p = none ↔
    ∀ hand ∈ x.hand, ∀ i ∈ p.index?, hand.length ≤ i := by
  simp only [itemAt?, Option.bind_eq_bind, Option.bind_eq_none_iff, List.getElem?_eq_none_iff,
    Option.mem_def]

theorem Context.subject?_eq_none_iff {t : Term} : x.subject? t = none ↔
    ∀ item ∈ x.subjectItem? t.position, ∀ v ∈ item.get? t.name, v = .null := by
  simp only [subject?, Option.bind_eq_none_iff, Properties.present?_eq_none_iff, Option.mem_def]

theorem Context.operand?_eq_none_iff {t : Term} : x.operand? t = none ↔
    ∀ item ∈ x.operandItem? t.position, ∀ v ∈ item.get? t.name, v = .null := by
  simp only [operand?, Option.bind_eq_none_iff, Properties.present?_eq_none_iff, Option.mem_def]

/-- A comparison fails, whatever its relation, if its subject is not found or the property that it
is compared with is not. -/
theorem Comparison.holds_of_unresolved {t : Term} {v : Operand}
    (h : x.subject? t = none ∨ ∃ u, v = .term u ∧ x.operand? u = none) (r : Relation) :
    Comparison.holds o x ⟨t, r, v⟩ = false := by
  rw [holds]
  cases hsubject : x.subject? t with
  | none => rfl
  | some a =>
    obtain hnone | ⟨u, rfl, hu⟩ := h
    · cases hsubject.symm.trans hnone
    · simp only [hu, Option.any_none]

/-- A slot whose position is outside the hand finds nothing there. -/
theorem Slot.found_of_outside {s : Slot} {p : Position} (hp : s.position = some p)
    (h : ∀ j ∈ p.index?, hand.length ≤ j) (i : Nat) : s.found o hand i = false := by
  rw [found, hp]
  refine (Option.any_eq_false _ _).2 fun j hj => ?_
  rw [fits, List.getElem?_eq_none (h j hj)]

theorem Pattern.matched_of_outside {q : Pattern} {s : Slot} (hs : s ∈ q) {p : Position}
    (hp : s.position = some p) (h : ∀ j ∈ p.index?, hand.length ≤ j) :
    q.matched o hand = false := by
  obtain ⟨i, hi⟩ := List.mem_iff_getElem?.1 hs
  refine Bool.eq_false_iff.2 fun hq => ?_
  exact Bool.eq_false_iff.1 (Slot.found_of_outside hp h i) (matched_iff.1 hq i s hi)

end Unresolved

end Lineup
