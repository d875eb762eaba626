import Lineup.Proofs.Rule.Conditions

/-!
# What verdicts depend on

A condition at an item reads the properties that it compares and nothing else: those without a
position at that item, those with one at the index that the position stands for. So it holds in one
hand as in any other that has the same values at these places (`Condition.holds_of_reads`), however
long the two are and whatever else is in them. A rule depends, besides, on how many items there are
and on which of them hold the names of its slots (`Rule.verdicts_of_agree`).
-/

namespace Lineup

/-! ### What is mentioned -/

def Operand.terms : Operand → List Term
  | .term t => [t]
  | _ => []

def Comparison.terms (c : Comparison) : List Term := c.subject :: c.operand.terms

/-- The properties that are compared, on either side, in reading order. -/
def Condition.terms : Condition → List Term
  | .comparison c => c.terms
  | .group c => c.terms
  | .join _ l r => l.terms ++ r.terms

/-- The names of the properties that occur in the conditions of a rule. -/
def Rule.propertyNames (r : Rule) : List String :=
  (r.conditions.flatMap Condition.terms).map Term.name

theorem Rule.name_mem_propertyNames {r : Rule} {c : Condition} {t : Term} (hc : c ∈ r.conditions)
    (ht : t ∈ c.terms) : t.name ∈ r.propertyNames :=
  List.mem_map_of_mem (List.mem_flatMap_of_mem hc ht)

/-! ### Conditions -/

variable {o : BoolOrdering} {A B : List Properties} {p q : Properties} {i j : Nat}

/-- The value of a property at an index of a hand. Outside of it there is none, as there is none
where the property is missing or null. -/
def valueAt? (hand : List Properties) (k : Nat) (n : String) : Option Value :=
  hand[k]?.bind (·.present? n)

theorem Comparison.holds_of_lookups {x y : Context} {c : Comparison}
    (hsubject : x.subject? c.subject = y.subject? c.subject)
    (hoperand : ∀ t ∈ c.operand.terms, x.operand? t = y.operand? t) :
    c.holds o x = c.holds o y := by
  rw [holds, holds, hsubject]
  cases hv : c.operand with
  | term t =>
    rw [hv] at hoperand
    simp only [hoperand t List.mem_cons_self]
  | number | boolean | string => rfl

/-- A condition holds in two contexts alike if every property that it compares is found to be the
same in both. -/
theorem Condition.holds_of_lookups {x y : Context} {c : Condition}
    (h : ∀ t ∈ c.terms, x.subject? t = y.subject? t ∧ x.operand? t = y.operand? t) :
    c.holds o x = c.holds o y := by
  induction c with
  | comparison c =>
    obtain ⟨hsubject, hoperand⟩ := List.forall_mem_cons.1 h
    exact Comparison.holds_of_lookups hsubject.1 fun t ht => (hoperand t ht).2
  | group c ih => exact ih h
  | join op l r ihl ihr =>
    obtain ⟨hl, hr⟩ := List.forall_mem_append.1 h
    rw [holds, holds, ihl hl, ihr hr]

/-- Says that the properties `ts` have the same values for the item `p` in `A` as for the item `q`
in `B`. -/
structure SameReads (ts : List Term) (A B : List Properties) (p q : Properties) : Prop where
  here : ∀ t ∈ ts, t.position = none → p.present? t.name = q.present? t.name
  there : ∀ t ∈ ts, ∀ pos ∈ t.position, ∀ k ∈ pos.index?,
    valueAt? A k t.name = valueAt? B k t.name

theorem Context.itemAt?_bind (pos : Position) (n : String) :
    (Context.itemAt? ⟨p, some A, i⟩ pos).bind (·.present? n) =
      pos.index?.bind (valueAt? A · n) := by
  rw [itemAt?]
  cases pos.index? with
  | none => rfl
  | some k => rfl

/-- What the item at an index is asked for does not depend on the side of the comparison. -/
theorem Context.lookups_of_sameReads (hp : A[i]? = some p) (hq : B[j]? = some q) {ts : List Term}
    (h : SameReads ts A B p q) {t : Term} (ht : t ∈ ts) :
    Context.subject? ⟨p, some A, i⟩ t = Context.subject? ⟨q, some B, j⟩ t ∧
      Context.operand? ⟨p, some A, i⟩ t = Context.operand? ⟨q, some B, j⟩ t := by
  have hhere := h.here t ht
  have hthere := h.there t ht
  rw [subject?, subject?, operand?, operand?]
  cases hpos : t.position with
  | none =>
    have hvalue := hhere hpos
    simp only [subjectItem?, operandItem?, hp, hq, Option.bind_some, hvalue, and_self]
  | some pos =>
    have hvalue :
        pos.index?.bind (valueAt? A · t.name) = pos.index?.bind (valueAt? B · t.name) := by
      cases hk : pos.index? with
      | none => rfl
      | some k => exact hthere pos hpos k hk
    simp only [subjectItem?, operandItem?, itemAt?_bind, hvalue, and_self]

/-- A condition reads nothing but the properties that it compares. -/
theorem Condition.holds_of_reads (hp : A[i]? = some p) (hq : B[j]? = some q) {c : Condition}
    (h : SameReads c.terms A B p q) :
    c.holds o ⟨p, some A, i⟩ = c.holds o ⟨q, some B, j⟩ :=
  holds_of_lookups fun _ ht => Context.lookups_of_sameReads hp hq h ht

/-! ### Rules -/

/-- Says that two items have the same values under `names` and that each of `strings` is held by
both or by neither. -/
structure Properties.Agree (names strings : List String) (p q : Properties) : Prop where
  values : ∀ n ∈ names, p.present? n = q.present? n
  strings : ∀ s ∈ strings, p.holdsString s = q.holdsString s

/-- Says that two hands are equally long and that their items agree, index by index. -/
structure HandsAgree (names strings : List String) (A B : List Properties) : Prop where
  length_eq : A.length = B.length
  items : ∀ (j : Nat) p q, A[j]? = some p → B[j]? = some q → p.Agree names strings q

section Hands

variable {names strings : List String}

theorem HandsAgree.valueAt?_eq (h : HandsAgree names strings A B) {n : String} (hn : n ∈ names)
    (k : Nat) : valueAt? A k n = valueAt? B k n := by
  rw [valueAt?, valueAt?]
  cases hp : A[k]? with
  | none => rw [List.getElem?_eq_none (h.length_eq ▸ List.getElem?_eq_none_iff.1 hp)]
  | some p =>
    obtain ⟨q, hq⟩ := exists_getElem?_of_length_le (Nat.le_of_eq h.length_eq) hp
    rw [hq]
    exact (h.items k p q hp hq).values n hn

theorem HandsAgree.sameReads (h : HandsAgree names strings A B) (hp : A[j]? = some p)
    (hq : B[j]? = some q) {ts : List Term} (hts : ∀ t ∈ ts, t.name ∈ names) :
    SameReads ts A B p q where
  here t ht _ := (h.items j p q hp hq).values t.name (hts t ht)
  there t ht _ _ k _ := h.valueAt?_eq (hts t ht) k

end Hands

/-- **Data that a rule does not mention makes no difference**: two hands of one length get the same
verdict if their items have the same values under the names in the conditions and hold the same of
the names of the slots. A condition reads its item and the indices that it names, and so it holds
alike at two items with the same values at these places, in hands of any lengths. -/
theorem Rule.verdicts_of_agree (o : BoolOrdering) :
    (∀ (r : Rule) (A B : List Properties), HandsAgree r.propertyNames r.slotNames A B →
        r.matched o A = r.matched o B) ∧
      ∀ (c : Condition) (A B : List Properties) (i j : Nat) (p q : Properties),
        A[i]? = some p → B[j]? = some q → SameReads c.terms A B p q →
          c.holds o ⟨p, some A, i⟩ = c.holds o ⟨q, some B, j⟩ := by
  refine ⟨fun r A B h => ?_, fun c A B i j p q hp hq h => Condition.holds_of_reads hp hq h⟩
  refine matched_congr h.length_eq (fun n hn j p q hp hq => (h.items j p q hp hq).strings n hn) ?_
  intro c hc j p q hp hq
  exact Condition.holds_of_reads hp hq
    (h.sameReads hp hq fun t ht => name_mem_propertyNames hc ht)

/-- That the ace was never seen is stored as null here and left out there, what else it has differs,
and to the condition the item after it makes no difference either. -/
theorem Rule.verdicts_of_agree_aces :
    HandsAgree ["seen", "rank", "rank"] ["ace"]
        [.ofList [("name", .string "ace"), ("rank", .int 1), ("seen", .null)]]
        [.ofList [("rank", .int 1), ("title", .string "ace"), ("weight", .int 7)]] ∧
      (Rule.simple [⟨"ace", some (.join .or (.comparison ⟨⟨"seen", none⟩, .eq, .boolean true⟩)
        (.comparison ⟨⟨"rank", none⟩, .ge, .term ⟨"rank", some (.absolute 0)⟩⟩)), none⟩]).matched
          .reject [.ofList [("rank", .int 1), ("title", .string "ace"), ("weight", .int 7)]] ∧
      (Condition.comparison ⟨⟨"rank", none⟩, .ge, .term ⟨"rank", some (.absolute 0)⟩⟩).holds .reject
        ⟨.ofList [("rank", .int 1), ("title", .string "ace"), ("weight", .int 7)],
          some [.ofList [("rank", .int 1), ("title", .string "ace"), ("weight", .int 7)], .empty],
          0⟩ := by
  have hagree : HandsAgree ["seen", "rank", "rank"] ["ace"]
      [.ofList [("name", .string "ace"), ("rank", .int 1), ("seen", .null)]]
      [.ofList [("rank", .int 1), ("title", .string "ace"), ("weight", .int 7)]] := by
    refine ⟨rfl, fun j p q hp hq => ?_⟩
    cases j with
    | succ j => cases hp
    | zero =>
      cases hp
      cases hq
      exact ⟨List.forall_mem_cons.2
        ⟨rfl, List.forall_mem_cons.2 ⟨rfl, List.forall_mem_singleton.2 rfl⟩⟩,
        List.forall_mem_singleton.2 rfl⟩
  have hreads : SameReads [⟨"rank", none⟩, ⟨"rank", some (.absolute 0)⟩]
      [.ofList [("name", .string "ace"), ("rank", .int 1), ("seen", .null)]]
      [.ofList [("rank", .int 1), ("title", .string "ace"), ("weight", .int 7)], .empty]
      (.ofList [("name", .string "ace"), ("rank", .int 1), ("seen", .null)])
      (.ofList [("rank", .int 1), ("title", .string "ace"), ("weight", .int 7)]) := by
    refine ⟨List.forall_mem_cons.2 ⟨fun _ => rfl, List.forall_mem_singleton.2 nofun⟩,
      List.forall_mem_cons.2 ⟨nofun, List.forall_mem_singleton.2 fun pos hpos k hk => ?_⟩⟩
    cases hpos
    cases hk
    rfl
  have hrule := (Rule.verdicts_of_agree .reject).1 (.simple [⟨"ace", some (.join .or
    (.comparison ⟨⟨"seen", none⟩, .eq, .boolean true⟩)
    (.comparison ⟨⟨"rank", none⟩, .ge, .term ⟨"rank", some (.absolute 0)⟩⟩)), none⟩]) _ _ hagree
  have hcondition := (Rule.verdicts_of_agree .reject).2
    (.comparison ⟨⟨"rank", none⟩, .ge, .term ⟨"rank", some (.absolute 0)⟩⟩) _ _ 0 0 _ _ rfl rfl
    hreads
  refine ⟨hagree, ?_, ?_⟩
  · rw [← hrule]
    decide +kernel
  · rw [← hcondition]
    decide +kernel

end Lineup
