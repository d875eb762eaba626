import Lineup.Proofs.Properties
import Lineup.Proofs.Rule.Conditions
import Lineup.Proofs.RuleText.RoundTrip
import Lineup.Proofs.Value

/-!
# Numbers and their texts in verdicts

Any numbers of a hand can be replaced by their texts: what a comparison looks up is replaced
likewise, and no operand tells the two apart, so every condition goes on to hold or not to hold
(`Condition.holds_respelled`). A slot, though, asks for its name as a text. The texts of integers
and finite floats are no names, so it finds the same items before and after
(`Rule.matched_respelled`); `inf` and `NaN` are names.
-/

namespace Lineup

open RuleText (IsName isWordStart spelled_of_derives)

/-- Says that `q` differs from `p` only in that texts stand for some of the numbers. -/
def Properties.Respelled (p q : Properties) : Prop :=
  ∀ k, Option.Rel Value.Respelled (p.get? k) (q.get? k)

/-- Says that `B` differs from `A` only in that texts stand for some of the numbers. -/
abbrev HandRespelled (A B : List Properties) : Prop := List.Forall₂ Properties.Respelled A B

/-- Says that `y` differs from `x` only in that texts stand for some of the numbers. -/
structure Context.Respelled (x y : Context) : Prop where
  item : x.item.Respelled y.item
  hand : Option.Rel HandRespelled x.hand y.hand
  index : x.index = y.index

theorem Option.Rel.bind {α β γ δ : Type} {R : α → β → Prop} {S : γ → δ → Prop} {a : Option α}
    {b : Option β} {f : α → Option γ} {g : β → Option δ} (h : Option.Rel R a b)
    (hfg : ∀ x y, R x y → Option.Rel S (f x) (g y)) : Option.Rel S (a.bind f) (b.bind g) := by
  cases h with
  | none => exact .none
  | some hxy => exact hfg _ _ hxy

theorem HandRespelled.getElem? {A B : List Properties} (h : HandRespelled A B) (j : Nat) :
    Option.Rel Properties.Respelled A[j]? B[j]? := by
  induction h generalizing j with
  | nil => exact .none
  | cons hpq _ ih =>
    cases j with
    | zero => exact .some hpq
    | succ j => exact ih j

/-! ### What is looked up -/

section Lookup

variable {x y : Context} {p q : Properties}

theorem Properties.Respelled.refl (p : Properties) : p.Respelled p := by
  intro k
  cases p.get? k with
  | none => exact .none
  | some v => exact .some (.same v)

theorem Properties.Respelled.insert (h : p.Respelled q) {k : String} {v w : Value}
    (hvw : v.Respelled w) : (p.insert k v).Respelled (q.insert k w) := by
  intro k'
  rw [get?_insert, get?_insert]
  split
  · exact .some hvw
  · exact h k'

theorem Properties.Respelled.present? (h : p.Respelled q) (k : String) :
    Option.Rel Value.Respelled (p.present? k) (q.present? k) := by
  have hk := h k
  rw [Properties.present?, Properties.present?]
  generalize p.get? k = a, q.get? k = b at hk ⊢
  cases hk with
  | none => exact .none
  | @some v w hvw =>
    rw [Option.filter_some, Option.filter_some, hvw.isNull_eq]
    split
    · exact .some hvw
    · exact .none

namespace Context.Respelled

theorem itemAt? (h : x.Respelled y) (pos : Position) :
    Option.Rel Properties.Respelled (x.itemAt? pos) (y.itemAt? pos) := by
  refine Option.Rel.bind h.hand fun A B hAB => ?_
  cases pos.index? with
  | none => exact .none
  | some i => exact hAB.getElem? i

theorem subjectItem? (h : x.Respelled y) (pos : Option Position) :
    Option.Rel Properties.Respelled (x.subjectItem? pos) (y.subjectItem? pos) := by
  cases pos with
  | none => exact .some h.item
  | some pos => exact h.itemAt? pos

theorem operandItem? (h : x.Respelled y) (pos : Option Position) :
    Option.Rel Properties.Respelled (x.operandItem? pos) (y.operandItem? pos) := by
  cases pos with
  | some pos => exact h.itemAt? pos
  | none =>
    have hhand := h.hand
    rw [Context.operandItem?, Context.operandItem?, h.index]
    generalize x.hand = A, y.hand = B at hhand ⊢
    cases hhand with
    | none => exact .some h.item
    | some hAB => exact hAB.getElem? y.index

theorem subject? (h : x.Respelled y) (t : Term) :
    Option.Rel Value.Respelled (x.subject? t) (y.subject? t) :=
  Option.Rel.bind (h.subjectItem? t.position) fun _ _ hpq => hpq.present? t.name

theorem operand? (h : x.Respelled y) (t : Term) :
    Option.Rel Value.Respelled (x.operand? t) (y.operand? t) :=
  Option.Rel.bind (h.operandItem? t.position) fun _ _ hpq => hpq.present? t.name

end Context.Respelled

end Lookup

/-! ### Conditions -/

section Conditions

variable {x y : Context}

/-- No operand tells a number from its text. -/
theorem Comparison.holds_respelled (h : x.Respelled y) (o : BoolOrdering) (c : Comparison) :
    c.holds o x = c.holds o y := by
  have hsubject := h.subject? c.subject
  rw [holds, holds]
  generalize x.subject? c.subject = a, y.subject? c.subject = b at hsubject ⊢
  cases hsubject with
  | none => rfl
  | @some v w hvw =>
    cases ho : c.operand with
    | number z =>
      have hnumber := hvw.asNumber?
      dsimp only
      generalize v.asNumber? = m, w.asNumber? = n at hnumber ⊢
      cases hnumber with
      | none => rfl
      | some hmn => simp only [Option.any_some, Binary64.compare?_of_alike hmn]
    | boolean b => exact hvw.relatesToBool_eq o c.relation b
    | string s => simp only [hvw.text_eq]
    | term t =>
      have hoperand := h.operand? t
      dsimp only
      generalize x.operand? t = a', y.operand? t = b' at hoperand ⊢
      cases hoperand with
      | none => rfl
      | some hvw' => simp only [Option.any_some, hvw.coercedOrder?_eq hvw']

theorem Condition.holds_respelled (h : x.Respelled y) (o : BoolOrdering) (c : Condition) :
    c.holds o x = c.holds o y := by
  induction c with
  | comparison c => exact Comparison.holds_respelled h o c
  | group c ih => exact ih
  | join op l r ihl ihr => simp only [holds, ihl, ihr]

end Conditions

/-! ### Rules -/

theorem RuleText.IsName.not_stops {n : String} (h : IsName n) :
    ¬ Text.Stops isWordStart n.toList := by
  obtain ⟨⟨c, l, hl, hc, -⟩, -⟩ := h
  rw [hl, Text.stops_cons, hc]
  exact Bool.true_eq_false_eq_False

/-- A name stands for no integer and for no finite float. -/
theorem Value.Respelled.string_iff {v w : Value} {n : String} (h : v.Respelled w)
    (hn : IsName n) (hfinite : v.isFinite) :
    v = .string n ↔ w = .string n := by
  cases h with
  | same v => rfl
  | int m =>
    refine iff_of_false nofun fun hm => hn.not_stops ?_
    rw [← Value.string.inj hm]
    exact (Value.spells_text_int m).stops_isWordStart
  | float x =>
    refine iff_of_false nofun fun hm => hn.not_stops ?_
    rw [← Value.string.inj hm]
    exact (Value.spells_text_float hfinite).stops_isWordStart

theorem Properties.Respelled.holdsString {p q : Properties} (h : p.Respelled q)
    (hp : p.Finite) {n : String} (hn : IsName n) : p.holdsString n = q.holdsString n := by
  rw [Bool.eq_iff_iff, holdsString_iff, holdsString_iff]
  refine exists_congr fun k => ?_
  have hk := h k
  have hfinite : ∀ v, p.get? k = some v → v.isFinite := fun v => hp.get?
  generalize p.get? k = a, q.get? k = b at hk hfinite ⊢
  cases hk with
  | none => exact Iff.rfl
  | some hvw =>
    rw [Option.some_inj, Option.some_inj]
    exact hvw.string_iff hn (hfinite _ rfl)

theorem Rule.Spelled.isName {r : Rule} (h : r.Spelled) : ∀ n ∈ r.slotNames, IsName n := by
  have hpattern : ∀ p : Pattern, p.Spelled → ∀ n ∈ p.slotNames, IsName n := fun p hp =>
    List.forall_mem_map.2 fun s hs => (hp.slots s hs).name
  cases r with
  | simple p => exact hpattern p h
  | conditional c p q =>
    obtain ⟨-, hp, hq⟩ := h
    refine List.forall_mem_append.2 ⟨hpattern p hp, List.forall_mem_flatMap.2 fun q' hq' => ?_⟩
    exact hpattern q' (hq q' (Option.mem_toList.1 hq'))

theorem HandRespelled.of_getElem? {A B : List Properties} (h : HandRespelled A B) {j : Nat}
    {p q : Properties} (hp : A[j]? = some p) (hq : B[j]? = some q) : p.Respelled q := by
  have hj := h.getElem? j
  rw [hp, hq] at hj
  cases hj with
  | some hpq => exact hpq

theorem Rule.matched_respelled {o : BoolOrdering} {A B : List Properties} (h : HandRespelled A B)
    (hA : ∀ p ∈ A, p.Finite) {r : Rule} (hr : r.Spelled) : r.matched o A = r.matched o B := by
  refine matched_congr (List.Forall₂.length_eq h) (fun n hn j p q hp hq => ?_)
    fun c _ j p q hp hq => ?_
  · exact (h.of_getElem? hp hq).holdsString (hA p (List.mem_of_getElem? hp)) (hr.isName n hn)
  · have hcontext : Context.Respelled ⟨p, some A, j⟩ ⟨q, some B, j⟩ :=
      ⟨h.of_getElem? hp hq, .some h, rfl⟩
    exact Condition.holds_respelled hcontext o c

/-- **Numbers and their texts are the same to conditions**: to put texts in the place of any
numbers, in the item and in the hand, makes no difference to a condition, and none to a rule that
was read if the floats of the hand are finite. -/
theorem Rule.verdicts_respelled (o : BoolOrdering) :
    (∀ (c : Condition) (x y : Context), x.Respelled y → c.holds o x = c.holds o y) ∧
      ∀ (text : String) (r : Rule), Rule.parse text = .ok r → ∀ A B : List Properties,
        (∀ p ∈ A, p.Finite) → HandRespelled A B → r.matched o A = r.matched o B := by
  refine ⟨fun c x y h => Condition.holds_respelled h o c, ?_⟩
  intro text r hr A B hA h
  exact matched_respelled h hA (spelled_of_derives (derives_of_parse hr)).1

/-- An integer is compared with a whole float, and then the text of the one with that of the
other. -/
theorem Rule.verdicts_respelled_seven :
    HandRespelled
        [.ofList [("name", .string "seven"), ("rank", .int 7),
          ("value", .float ⟨0x401c000000000000⟩)]]
        [.ofList [("name", .string "seven"), ("rank", .string "7"), ("value", .string "7.0")]] ∧
      (Rule.simple [⟨"seven", some (.comparison ⟨⟨"rank", none⟩, .eq, .term ⟨"value", none⟩⟩),
        none⟩]).matched .reject
        [.ofList [("name", .string "seven"), ("rank", .string "7"), ("value", .string "7.0")]] := by
  have hint : Value.Respelled (.int 7) (.string "7") := .int 7
  have hfloat : Value.Respelled (.float ⟨0x401c000000000000⟩) (.string "7.0") := by
    have htext : (Value.float ⟨0x401c000000000000⟩).text = "7.0" := by decide +kernel
    rw [← htext]
    exact .float _
  have hhand : HandRespelled
      [.ofList [("name", .string "seven"), ("rank", .int 7),
          ("value", .float ⟨0x401c000000000000⟩)]]
      [.ofList [("name", .string "seven"), ("rank", .string "7"), ("value", .string "7.0")]] :=
    .cons ((((Properties.Respelled.refl .empty).insert (.same _)).insert hint).insert hfloat) .nil
  have hfinite : ∀ p ∈ [Properties.ofList [("name", .string "seven"), ("rank", .int 7),
      ("value", .float ⟨0x401c000000000000⟩)]], p.Finite := List.forall_mem_singleton.2 (by decide)
  have hprintable : (Rule.simple [⟨"seven", some (.comparison ⟨⟨"rank", none⟩, .eq,
      .term ⟨"value", none⟩⟩), none⟩]).Printable := by decide
  have hparse : Rule.parse "seven(rank = value)" = .ok (.simple [⟨"seven",
      some (.comparison ⟨⟨"rank", none⟩, .eq, .term ⟨"value", none⟩⟩), none⟩]) := by
    refine Eq.trans (congrArg Rule.parse ?_) (Rule.parse_of_printable hprintable)
    decide +kernel
  refine ⟨hhand, ?_⟩
  rw [← (Rule.verdicts_respelled .reject).2 _ _ hparse _ _ hfinite hhand]
  decide +kernel

end Lineup
