import Lineup.Rule.Verdict

/-!
# Access by index

Verdicts can be reached by accessing the hand by index. The index that a position stands for is held
against the length of the hand first, and what is not an index of the hand is not accessed; a slot
without a position goes through the items from its own place on. An access outside of the hand gets
stuck. It never comes to that, whatever the positions and indices are, and the verdicts are those of
`Rule.matched` (`Rule.matchedIndexed?_eq`).
-/

namespace Lineup

/-- The index that a position stands for, if a hand of `n` items has it. -/
def Position.indexWithin? (p : Position) (n : Nat) : Option Nat := p.index?.filter (· < n)

/-- What comes of a step that accesses a hand by index; nothing if it gets stuck. -/
abbrev Access (α : Type) := Option α

/-- The item at an index, outside of the hand an access gets stuck. -/
def itemAccess (hand : List Properties) (i : Nat) : Access Properties := hand[i]?

/-! ### Conditions -/

namespace Context

/-- The item at a position, accessed by index. -/
def itemIndexed? (x : Context) (p : Position) : Access (Option Properties) :=
  match x.hand with
  | none => return none
  | some hand =>
    match p.indexWithin? hand.length with
    | none => return none
    | some i => return some (← itemAccess hand i)

def subjectIndexed? (x : Context) : Option Position → Access (Option Properties)
  | some p => x.itemIndexed? p
  | none => return some x.item

/-- The item that the other side of a comparison is read from. The current index can be any number;
what stands there is asked for and not accessed. -/
def operandIndexed? (x : Context) : Option Position → Access (Option Properties)
  | some p => x.itemIndexed? p
  | none =>
    match x.hand with
    | some hand => return hand[x.index]?
    | none => return some x.item

end Context

def Comparison.holdsIndexed? (o : BoolOrdering) (x : Context) (c : Comparison) : Access Bool := do
  let item ← x.subjectIndexed? c.subject.position
  match item.bind (·.present? c.subject.name) with
  | none => return false
  | some v =>
    match c.operand with
    | .number y => return v.asNumber?.any fun n => c.relation.admits (n.compare? y)
    | .boolean b => return v.relatesToBool o c.relation b
    | .string s => return c.relation.holds (compare v.text s)
    | .term t =>
      let other ← x.operandIndexed? t.position
      return (other.bind (·.present? t.name)).any fun w => c.relation.admits (v.coercedOrder? w)

/-- Judges both sides of a condition, whatever comes of the first. -/
def Condition.holdsIndexed? (o : BoolOrdering) (x : Context) : Condition → Access Bool
  | .comparison c => c.holdsIndexed? o x
  | .group c => c.holdsIndexed? o x
  | .join op l r => return op.apply (← l.holdsIndexed? o x) (← r.holdsIndexed? o x)

/-! ### Rules -/

/-- Whether an item that stands at index `j` is one that a slot asks for. -/
def Slot.acceptsIndexed? (o : BoolOrdering) (hand : List Properties) (s : Slot)
    (item : Properties) (j : Nat) : Access Bool :=
  if item.holdsString s.name then
    match s.constraint with
    | some c => c.holdsIndexed? o ⟨item, some hand, j⟩
    | none => return true
  else return false

def Slot.foundIndexed? (o : BoolOrdering) (hand : List Properties) (s : Slot) (i : Nat) :
    Access Bool :=
  match s.position with
  | some p =>
    match p.indexWithin? hand.length with
    | none => return false
    | some j => do s.acceptsIndexed? o hand (← itemAccess hand j) j
  | none => (hand.zipIdx.drop i).anyM fun (item, j) => s.acceptsIndexed? o hand item j

def Pattern.matchedIndexed? (o : BoolOrdering) (hand : List Properties) (p : Pattern) :
    Access Bool :=
  p.zipIdx.allM fun (s, i) => s.foundIndexed? o hand i

def Rule.matchedIndexed? (o : BoolOrdering) (hand : List Properties) : Rule → Access Bool
  | .simple p => p.matchedIndexed? o hand
  | .conditional c p q =>
    match hand with
    | [] => return false
    | first :: _ => do
      if ← c.holdsIndexed? o ⟨first, some hand, 0⟩ then p.matchedIndexed? o hand
      else
        match q with
        | some q => q.matchedIndexed? o hand
        | none => return false

/-! ### No access gets stuck -/

variable {o : BoolOrdering} {hand : List Properties} {x : Context}

theorem Position.indexWithin?_eq_some_iff {p : Position} {n i : Nat} :
    p.indexWithin? n = some i ↔ p.index? = some i ∧ i < n := by
  rw [indexWithin?, Option.filter_eq_some_iff, decide_eq_true_eq]

theorem Position.indexWithin?_eq_none_iff {p : Position} {n : Nat} :
    p.indexWithin? n = none ↔ ∀ i, p.index? = some i → n ≤ i := by
  rw [indexWithin?, Option.filter_eq_none_iff]
  simp only [decide_eq_true_eq, Nat.not_lt]

theorem itemAccess_of_lt {i : Nat} (h : i < hand.length) :
    ∃ item, itemAccess hand i = some item ∧ hand[i]? = some item :=
  ⟨_, List.getElem?_eq_getElem h, List.getElem?_eq_getElem h⟩

theorem Context.itemIndexed?_eq (x : Context) (p : Position) :
    x.itemIndexed? p = some (x.itemAt? p) := by
  rw [itemIndexed?, itemAt?]
  cases x.hand with
  | none => rfl
  | some hand =>
    dsimp only
    split
    · rename_i hp
      have hout := Position.indexWithin?_eq_none_iff.1 hp
      cases hi : p.index? with
      | none => rfl
      | some i => exact congrArg some (List.getElem?_eq_none (hout i hi)).symm
    · rename_i i hp
      obtain ⟨hi, hlt⟩ := Position.indexWithin?_eq_some_iff.1 hp
      obtain ⟨item, haccess, hitem⟩ := itemAccess_of_lt hlt
      simp only [haccess, hi, hitem, Option.bind_eq_bind, Option.bind_some, Option.pure_def]

theorem Context.subjectIndexed?_eq (x : Context) (p : Option Position) :
    x.subjectIndexed? p = some (x.subjectItem? p) := by
  cases p with
  | none => rfl
  | some p => exact x.itemIndexed?_eq p

theorem Context.operandIndexed?_eq (x : Context) (p : Option Position) :
    x.operandIndexed? p = some (x.operandItem? p) := by
  cases p with
  | none =>
    rw [operandIndexed?, operandItem?]
    cases x.hand <;> rfl
  | some p => exact x.itemIndexed?_eq p

theorem Comparison.holdsIndexed?_eq (o : BoolOrdering) (x : Context) (c : Comparison) :
    c.holdsIndexed? o x = some (c.holds o x) := by
  simp only [holdsIndexed?, holds, Context.subject?, Context.subjectIndexed?_eq,
    Option.bind_eq_bind, Option.bind_some]
  cases (x.subjectItem? c.subject.position).bind (·.present? c.subject.name) with
  | none => rfl
  | some v =>
    cases c.operand with
    | term t => simp only [Context.operandIndexed?_eq, Option.bind_some]; rfl
    | number | boolean | string => rfl

theorem Condition.holdsIndexed?_eq (o : BoolOrdering) (x : Context) (c : Condition) :
    c.holdsIndexed? o x = some (c.holds o x) := by
  induction c with
  | comparison c => exact c.holdsIndexed?_eq o x
  | group c ih => exact ih
  | join op l r ihl ihr =>
    simp only [holdsIndexed?, holds, ihl, ihr, Option.bind_eq_bind, Option.bind_some,
      Option.pure_def]

theorem Slot.acceptsIndexed?_eq (s : Slot) (item : Properties) (j : Nat) :
    s.acceptsIndexed? o hand item j =
      some (item.holdsString s.name && holdsIfAny o ⟨item, some hand, j⟩ s.constraint) := by
  rw [acceptsIndexed?]
  cases item.holdsString s.name with
  | false => rfl
  | true =>
    rw [if_pos rfl, Bool.true_and]
    cases s.constraint with
    | none => rfl
    | some c => exact c.holdsIndexed?_eq o _

theorem Slot.acceptsIndexed?_eq_fits (s : Slot) {item : Properties} {j : Nat}
    (h : hand[j]? = some item) : s.acceptsIndexed? o hand item j = some (s.fits o hand j) := by
  rw [acceptsIndexed?_eq, fits, h]

/-- The items of a hand from an index on, each with its index. -/
theorem mem_drop_zipIdx {i j : Nat} {item : Properties} :
    (item, j) ∈ hand.zipIdx.drop i ↔ i ≤ j ∧ hand[j]? = some item := by
  simp only [List.mem_iff_getElem?, List.getElem?_drop, List.getElem?_zipIdx, Nat.zero_add,
    Option.map_eq_some_iff, Prod.mk.injEq]
  constructor
  · rintro ⟨k, a, ha, rfl, rfl⟩
    exact ⟨Nat.le_add_right i k, ha⟩
  · rintro ⟨hij, ha⟩
    exact ⟨j - i, item, by rwa [Nat.add_sub_cancel' hij], rfl, Nat.add_sub_cancel' hij⟩

theorem Slot.foundIndexed?_eq (s : Slot) (i : Nat) :
    s.foundIndexed? o hand i = some (s.found o hand i) := by
  rw [foundIndexed?, found]
  cases s.position with
  | none =>
    -- Both go through the same items, here by what stands there and there by its index.
    have hany : (hand.zipIdx.drop i).any (fun (item, j) =>
          item.holdsString s.name && holdsIfAny o ⟨item, some hand, j⟩ s.constraint) =
        (List.range hand.length).any fun j => i ≤ j && s.fits o hand j := by
      rw [Bool.eq_iff_iff, List.any_eq_true, List.any_eq_true]
      constructor
      · rintro ⟨⟨item, j⟩, hmem, haccepts⟩
        obtain ⟨hij, hitem⟩ := mem_drop_zipIdx.1 hmem
        obtain ⟨hj, -⟩ := List.getElem?_eq_some_iff.1 hitem
        refine ⟨j, List.mem_range.2 hj, Bool.and_eq_true_iff.2 ⟨decide_eq_true hij, ?_⟩⟩
        rw [fits, hitem]
        exact haccepts
      · rintro ⟨j, hj, h⟩
        obtain ⟨hij, hfits⟩ := Bool.and_eq_true_iff.1 h
        obtain ⟨item, -, hitem⟩ := itemAccess_of_lt (List.mem_range.1 hj)
        rw [fits, hitem] at hfits
        exact ⟨(item, j), mem_drop_zipIdx.2 ⟨of_decide_eq_true hij, hitem⟩, hfits⟩
    rw [← hany]
    simp only [acceptsIndexed?_eq]
    exact List.anyM_pure
  | some p =>
    dsimp only
    cases hp : p.indexWithin? hand.length with
    | none =>
      have hout := Position.indexWithin?_eq_none_iff.1 hp
      cases hi : p.index? with
      | none => rfl
      | some j =>
        simp only [Option.any_some, fits, List.getElem?_eq_none (hout j hi)]
        rfl
    | some j =>
      obtain ⟨hj, hlt⟩ := Position.indexWithin?_eq_some_iff.1 hp
      obtain ⟨item, haccess, hitem⟩ := itemAccess_of_lt hlt
      simp only [haccess, hj, Option.bind_eq_bind, Option.bind_some, Option.any_some,
        s.acceptsIndexed?_eq_fits hitem]

theorem Pattern.matchedIndexed?_eq (p : Pattern) :
    p.matchedIndexed? o hand = some (p.matched o hand) := by
  simp only [matchedIndexed?, Slot.foundIndexed?_eq]
  exact List.allM_pure

/-- Reaching a verdict by accesses never gets stuck. -/
theorem Rule.matchedIndexed?_eq (o : BoolOrdering) (hand : List Properties) (r : Rule) :
    r.matchedIndexed? o hand = some (r.matched o hand) := by
  cases r with
  | simple p => exact p.matchedIndexed?_eq
  | conditional c p q =>
    cases hand with
    | nil => rfl
    | cons first hand =>
      simp only [matchedIndexed?, matched, Condition.holdsIndexed?_eq, Option.bind_eq_bind,
        Option.bind_some, Pattern.matchedIndexed?_eq]
      split
      · rfl
      · cases q <;> rfl

end Lineup
