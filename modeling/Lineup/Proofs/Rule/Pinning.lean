import Lineup.Proofs.Rule.Conditions

/-!
# Pinned patterns

A slot without a position looks for its item from its own place in the pattern on. To pin it to an
index is to write the index out: as its position, and in its condition at each property that is read
from the item looked at. A slot finds an item just if it does so pinned to one of the indices from
its place on (`Slot.found_iff_exists_pinned`). As slots do not get in each other's way, the indices
can be chosen slot by slot, and a pattern is matched just if it is matched when it is pinned to some
choice of them (`Pattern.matched_iff_exists_pinned`).
-/

namespace Lineup

/-! ### Pinning -/

/-- The property at the index `j`, unless the term has a position of its own. -/
def Term.pinnedAt (j : Nat) (t : Term) : Term :=
  match t.position with
  | some _ => t
  | none => t.pinned (.ofNat j)

def Condition.pinnedAt (j : Nat) : Condition → Condition := mapTerms (Term.pinnedAt j)

/-- A slot with the index written out at which it looks for its item: its own position, or `j` if it
has none. A slot whose position is outside the hand stays as it is. -/
def Slot.pinnedAt (hand : List Properties) (j : Nat) (s : Slot) : Slot :=
  match s.position with
  | none => ⟨s.name, s.constraint.map (Condition.pinnedAt j), some (.absolute (.ofNat j))⟩
  | some p =>
    match p.index?.filter (· < hand.length) with
    | some i => { s with constraint := s.constraint.map (Condition.pinnedAt i) }
    | none => s

/-- A pattern with each slot pinned, the slot at place `i` to the index `seats i`. -/
def Pattern.pinnedAt (hand : List Properties) (seats : Nat → Nat) (p : Pattern) : Pattern :=
  p.mapIdx fun i s => s.pinnedAt hand (seats i)

/-- Says that `seats` chooses, for each slot of `p` without a position, an index of a hand of `n`
items that is not before the place of the slot. -/
def Pattern.Seated (p : Pattern) (n : Nat) (seats : Nat → Nat) : Prop :=
  ∀ (i : Nat) (s : Slot), p[i]? = some s → s.position = none → i ≤ seats i ∧ seats i < n

/-! ### Conditions -/

variable {o : BoolOrdering} {hand : List Properties} {item : Properties} {i j : Nat}

theorem index?_ofNat (hj : j < Nat.pow 2 63) : (Position.absolute (.ofNat j)).index? = some j := by
  have htoInt : (Int64.ofNat j).toInt = j := Int64.toInt_ofNat_of_lt hj
  rw [Position.index?, htoInt, if_neg (Int.not_lt.2 (Int.natCast_nonneg j)), Int.toNat_natCast]

theorem Context.itemAt?_ofNat (hj : j < Nat.pow 2 63) (hitem : hand[j]? = some item) :
    Context.itemAt? ⟨item, some hand, j⟩ (.absolute (.ofNat j)) = some item := by
  simp only [itemAt?, Option.bind_eq_bind, Option.bind_some, index?_ofNat hj, hitem]

theorem Context.subject?_pinnedAt (hj : j < Nat.pow 2 63) (hitem : hand[j]? = some item)
    (t : Term) :
    Context.subject? ⟨item, some hand, j⟩ (t.pinnedAt j) =
      Context.subject? ⟨item, some hand, j⟩ t := by
  obtain ⟨n, p⟩ := t
  cases p with
  | some p => rfl
  | none =>
    have hat := itemAt?_ofNat hj hitem
    simp only [subject?, Term.pinnedAt, Term.pinned, subjectItem?, hat]

theorem Context.operand?_pinnedAt (hj : j < Nat.pow 2 63) (hitem : hand[j]? = some item)
    (t : Term) :
    Context.operand? ⟨item, some hand, j⟩ (t.pinnedAt j) =
      Context.operand? ⟨item, some hand, j⟩ t := by
  obtain ⟨n, p⟩ := t
  cases p with
  | some p => rfl
  | none =>
    have hat := itemAt?_ofNat hj hitem
    simp only [operand?, Term.pinnedAt, Term.pinned, operandItem?, hat, hitem]

/-- At the item at index `j` it makes no difference to write `j` out. -/
theorem Condition.holds_pinnedAt (hj : j < Nat.pow 2 63) (hitem : hand[j]? = some item)
    (c : Condition) :
    (c.pinnedAt j).holds o ⟨item, some hand, j⟩ = c.holds o ⟨item, some hand, j⟩ :=
  holds_mapTerms (Context.subject?_pinnedAt hj hitem) (Context.operand?_pinnedAt hj hitem) o c

/-! ### Slots -/

theorem Slot.fits_pinned (h : hand.length < Nat.pow 2 63) (s : Slot) (p : Option Position) :
    Slot.fits o hand ⟨s.name, s.constraint.map (Condition.pinnedAt j), p⟩ j = s.fits o hand j := by
  rw [fits, fits]
  cases hitem : hand[j]? with
  | none => rfl
  | some item =>
    obtain ⟨hlt, -⟩ := List.getElem?_eq_some_iff.1 hitem
    have hj : j < Nat.pow 2 63 := Nat.lt_trans hlt h
    cases s.constraint with
    | none => rfl
    | some c => simp only [Option.map_some, holdsIfAny, Condition.holds_pinnedAt hj hitem]

theorem Slot.found_pinnedAt_of_position_none (h : hand.length < Nat.pow 2 63) {s : Slot}
    (hs : s.position = none) (hj : j < hand.length) :
    (s.pinnedAt hand j).found o hand i = s.fits o hand j := by
  have hpinned : s.pinnedAt hand j =
      ⟨s.name, s.constraint.map (Condition.pinnedAt j), some (.absolute (.ofNat j))⟩ := by
    rw [pinnedAt, hs]
  rw [hpinned, found]
  simp only [index?_ofNat (Nat.lt_trans hj h), Option.any_some, fits_pinned h]

/-- A slot with a position finds the same when its condition is pinned. -/
theorem Slot.found_pinnedAt_of_position_some (h : hand.length < Nat.pow 2 63) {s : Slot}
    {p : Position} (hs : s.position = some p) :
    (s.pinnedAt hand j).found o hand i = s.found o hand i := by
  simp only [pinnedAt, hs]
  split
  · rename_i k hk
    obtain ⟨hindex, -⟩ := Option.filter_eq_some_iff.1 hk
    simp only [found, hs, hindex, Option.any_some, fits_pinned h]
  · rfl

/-- A slot finds an item just if it does so pinned to some index, which is its own place or a later
one unless it has a position. -/
theorem Slot.found_iff_exists_pinned (h : hand.length < Nat.pow 2 63) (s : Slot) :
    s.found o hand i ↔
      ∃ j, (s.position = none → i ≤ j ∧ j < hand.length) ∧ (s.pinnedAt hand j).found o hand i := by
  cases hs : s.position with
  | some p =>
    simp only [found_pinnedAt_of_position_some h hs, reduceCtorEq, false_implies, true_and,
      exists_const]
  | none =>
    rw [found_of_position_none hs]
    refine exists_congr fun j => ?_
    constructor
    · rintro ⟨hj, hfits⟩
      exact ⟨fun _ => hj, (found_pinnedAt_of_position_none h hs hj.2).trans hfits⟩
    · rintro ⟨hj, hfound⟩
      have hj := hj rfl
      exact ⟨hj, (found_pinnedAt_of_position_none h hs hj.2).symm.trans hfound⟩

/-! ### Patterns -/

theorem Pattern.matched_pinnedAt_iff {p : Pattern} {seats : Nat → Nat} :
    (p.pinnedAt hand seats).matched o hand ↔
      ∀ (i : Nat) (s : Slot), p[i]? = some s → (s.pinnedAt hand (seats i)).found o hand i := by
  simp only [matched_iff, pinnedAt, List.getElem?_mapIdx, Option.map_eq_some_iff]
  constructor
  · intro h i s hs
    exact h i _ ⟨s, hs, rfl⟩
  · rintro h i _ ⟨s, hs, rfl⟩
    exact h i s hs

/-- **Scanning is the choice of a pinned pattern**: a hand matches a pattern just if it matches the
pattern pinned to some choice of indices, one for each slot without a position, chosen
independently of each other from the place of the slot on. -/
theorem Pattern.matched_iff_exists_pinned (h : hand.length < Nat.pow 2 63) (o : BoolOrdering)
    (p : Pattern) :
    (Rule.simple p).matched o hand ↔
      ∃ seats, p.Seated hand.length seats ∧
        (Rule.simple (p.pinnedAt hand seats)).matched o hand := by
  constructor
  · intro hp
    have hfound := matched_iff.1 hp
    have hseat : ∀ i, ∃ j, ∀ s, p[i]? = some s →
        (s.position = none → i ≤ j ∧ j < hand.length) ∧ (s.pinnedAt hand j).found o hand i := by
      intro i
      cases hs : p[i]? with
      | none => exact ⟨0, nofun⟩
      | some s =>
        obtain ⟨j, hj⟩ := (Slot.found_iff_exists_pinned h s).1 (hfound i s hs)
        exact ⟨j, fun s' hs' => Option.some.inj hs' ▸ hj⟩
    obtain ⟨seats, hseats⟩ := Classical.axiomOfChoice hseat
    have hpinned := matched_pinnedAt_iff.2 fun i s hs => (hseats i s hs).2
    exact ⟨seats, fun i s hs => (hseats i s hs).1, hpinned⟩
  · rintro ⟨seats, hseated, hpinned⟩
    have hfound := matched_pinnedAt_iff.1 hpinned
    apply matched_iff.2
    intro i s hs
    exact (Slot.found_iff_exists_pinned h s).2 ⟨seats i, hseated i s hs, hfound i s hs⟩

/-- The first slot passes over the item that it compares with, and the second has a position. -/
theorem Pattern.matched_pinned_aces :
    [Properties.ofList [("name", .string "ace"), ("rank", .int 1)],
        .ofList [("name", .string "ace"), ("rank", .int 14)]].length < Nat.pow 2 63 ∧
      ∃ seats, Pattern.Seated
          [⟨"ace", some (.comparison ⟨⟨"rank", none⟩, .gt, .term ⟨"rank", some (.absolute 0)⟩⟩),
              none⟩,
            ⟨"ace", some (.comparison ⟨⟨"rank", some (.absolute 0)⟩, .ne, .term ⟨"rank", none⟩⟩),
              some (.absolute 1)⟩] 2 seats ∧
        (Rule.simple (Pattern.pinnedAt
          [.ofList [("name", .string "ace"), ("rank", .int 1)],
            .ofList [("name", .string "ace"), ("rank", .int 14)]] seats
          [⟨"ace", some (.comparison ⟨⟨"rank", none⟩, .gt, .term ⟨"rank", some (.absolute 0)⟩⟩),
              none⟩,
            ⟨"ace", some (.comparison ⟨⟨"rank", some (.absolute 0)⟩, .ne, .term ⟨"rank", none⟩⟩),
              some (.absolute 1)⟩])).matched .reject
          [.ofList [("name", .string "ace"), ("rank", .int 1)],
            .ofList [("name", .string "ace"), ("rank", .int 14)]] := by
  have hlength : [Properties.ofList [("name", .string "ace"), ("rank", .int 1)],
      .ofList [("name", .string "ace"), ("rank", .int 14)]].length < Nat.pow 2 63 := by decide
  exact ⟨hlength, (Pattern.matched_iff_exists_pinned hlength .reject _).1 (by decide +kernel)⟩

end Lineup
