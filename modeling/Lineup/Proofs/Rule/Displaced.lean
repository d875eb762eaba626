import Lineup.Proofs.Rule.Accesses
import Lineup.Proofs.Rule.Conditions
import Lineup.Proofs.RuleText.Spelled

/-!
# Positions that are not valid

Rules can be matched without having been checked. A position that is not a valid index, because it
is relative or negative, is resolved like an index that the hand does not have: not at all. So such
positions can be displaced behind the end of the hand, each to an index of its own, and every
condition goes on to hold or not to hold (`Condition.holds_of_displaced`) and every rule to match or
not to match (`Rule.verdicts_of_displaced`).
-/

namespace Lineup

/-- Says that `q` is `p`, or, in place of a position `p` that is not a valid index, an index behind
the end of a hand of `n` items. -/
inductive Position.Displaced (n : Nat) : Position → Position → Prop where
  | kept (p : Position) : Displaced n p p
  | behind {p : Position} {k : Int64} : ¬ p.IsIndex → (n : Int) ≤ k.toInt →
    Displaced n p (.absolute k)

structure Term.Displaced (n : Nat) (t u : Term) : Prop where
  name : t.name = u.name
  position : Option.Rel (Position.Displaced n) t.position u.position

inductive Operand.Displaced (n : Nat) : Operand → Operand → Prop where
  | kept (v : Operand) : Displaced n v v
  | term {t u : Term} : t.Displaced n u → Displaced n (.term t) (.term u)

structure Comparison.Displaced (n : Nat) (c d : Comparison) : Prop where
  subject : c.subject.Displaced n d.subject
  relation : c.relation = d.relation
  operand : c.operand.Displaced n d.operand

inductive Condition.Displaced (n : Nat) : Condition → Condition → Prop where
  | comparison {c d : Comparison} : c.Displaced n d → Displaced n (.comparison c) (.comparison d)
  | group {c d : Condition} : Displaced n c d → Displaced n (.group c) (.group d)
  | join {op : Connective} {c c' d d' : Condition} : Displaced n c c' → Displaced n d d' →
    Displaced n (.join op c d) (.join op c' d')

structure Slot.Displaced (n : Nat) (s t : Slot) : Prop where
  name : s.name = t.name
  constraint : Option.Rel (Condition.Displaced n) s.constraint t.constraint
  position : Option.Rel (Position.Displaced n) s.position t.position

abbrev Pattern.Displaced (n : Nat) (p q : Pattern) : Prop := List.Forall₂ (Slot.Displaced n) p q

/-- Says that `s` is `r` with some of its invalid positions displaced behind the end of a hand of
`n` items. -/
inductive Rule.Displaced (n : Nat) : Rule → Rule → Prop where
  | simple {p q : Pattern} : p.Displaced n q → Displaced n (.simple p) (.simple q)
  | conditional {c c' : Condition} {p p' : Pattern} {q q' : Option Pattern} :
    c.Displaced n c' → p.Displaced n p' → Option.Rel (Pattern.Displaced n) q q' →
    Displaced n (.conditional c p q) (.conditional c' p' q')

variable {o : BoolOrdering} {hand : List Properties} {item : Properties} {i j : Nat}

/-! ### Positions -/

theorem Position.index?_eq_none {p : Position} (h : ¬ p.IsIndex) : p.index? = none := by
  cases p with
  | absolute k => exact if_pos (Int.not_le.1 h)
  | relative k => rfl

/-- The index of a displaced position is not one of the hand. -/
theorem Position.length_le_of_index? {k : Int64} (hk : (hand.length : Int) ≤ k.toInt)
    (h : (Position.absolute k).index? = some i) : hand.length ≤ i := by
  rw [index?] at h
  split at h
  · cases h
  · obtain rfl := Option.some.inj h
    omega

theorem Position.Displaced.any_index? {p q : Position} (h : p.Displaced hand.length q)
    {f : Nat → Bool} (hf : ∀ i, hand.length ≤ i → f i = false) :
    q.index?.any f = p.index?.any f := by
  cases h with
  | kept => rfl
  | behind hp hk =>
    rw [index?_eq_none hp, Option.any_none, Option.any_eq_false]
    intro i hi
    exact hf i (length_le_of_index? hk hi)

theorem Position.Displaced.itemAt? {p q : Position} (h : p.Displaced hand.length q) :
    Context.itemAt? ⟨item, some hand, j⟩ q = Context.itemAt? ⟨item, some hand, j⟩ p := by
  cases h with
  | kept => rfl
  | behind hp hk =>
    simp only [Context.itemAt?, Option.bind_eq_bind, Option.bind_some, index?_eq_none hp,
      Option.bind_none, Option.bind_eq_none_iff]
    intro i hi
    exact List.getElem?_eq_none (length_le_of_index? hk hi)

/-! ### Conditions -/

theorem Term.Displaced.subject? {t u : Term} (h : t.Displaced hand.length u) :
    Context.subject? ⟨item, some hand, j⟩ u = Context.subject? ⟨item, some hand, j⟩ t := by
  obtain ⟨n, p⟩ := t
  obtain ⟨m, q⟩ := u
  obtain ⟨rfl, hposition⟩ := h
  cases hposition with
  | none => rfl
  | some hpq => simp only [Context.subject?, Context.subjectItem?, hpq.itemAt?]

theorem Term.Displaced.operand? {t u : Term} (h : t.Displaced hand.length u) :
    Context.operand? ⟨item, some hand, j⟩ u = Context.operand? ⟨item, some hand, j⟩ t := by
  obtain ⟨n, p⟩ := t
  obtain ⟨m, q⟩ := u
  obtain ⟨rfl, hposition⟩ := h
  cases hposition with
  | none => rfl
  | some hpq => simp only [Context.operand?, Context.operandItem?, hpq.itemAt?]

theorem Comparison.holds_of_displaced {c d : Comparison} (h : c.Displaced hand.length d) :
    d.holds o ⟨item, some hand, j⟩ = c.holds o ⟨item, some hand, j⟩ := by
  obtain ⟨t, r, v⟩ := c
  obtain ⟨u, r', w⟩ := d
  obtain ⟨hsubject, rfl, hoperand⟩ := h
  cases hoperand with
  | kept => simp only [holds, hsubject.subject?]
  | term ht => simp only [holds, hsubject.subject?, ht.operand?]

theorem Condition.holds_of_displaced {c d : Condition} (h : c.Displaced hand.length d) :
    d.holds o ⟨item, some hand, j⟩ = c.holds o ⟨item, some hand, j⟩ := by
  induction h with
  | comparison h => exact Comparison.holds_of_displaced h
  | group _ ih => exact ih
  | join _ _ ihc ihd => simp only [holds, ihc, ihd]

/-! ### Patterns -/

theorem Slot.fits_of_displaced {s t : Slot} (h : s.Displaced hand.length t) :
    t.fits o hand = s.fits o hand := by
  have hholds : ∀ item j, holdsIfAny o ⟨item, some hand, j⟩ t.constraint =
      holdsIfAny o ⟨item, some hand, j⟩ s.constraint := by
    intro item j
    have hconstraint := h.constraint
    generalize s.constraint = c, t.constraint = d at hconstraint ⊢
    cases hconstraint with
    | none => rfl
    | some hcd => exact Condition.holds_of_displaced hcd
  funext j
  simp only [fits, h.name, hholds]

theorem Slot.found_of_displaced {s t : Slot} (h : s.Displaced hand.length t) :
    t.found o hand i = s.found o hand i := by
  have hposition := h.position
  rw [found, found, fits_of_displaced h]
  generalize s.position = p, t.position = q at hposition ⊢
  cases hposition with
  | none => rfl
  | some hpq =>
    refine hpq.any_index? fun i hi => ?_
    rw [fits, List.getElem?_eq_none hi]

theorem Pattern.matched_of_displaced {p q : Pattern} (h : p.Displaced hand.length q) :
    q.matched o hand = p.matched o hand := by
  have hall : ∀ i, (q.zipIdx i).all (fun x => x.1.found o hand x.2) =
      (p.zipIdx i).all fun x => x.1.found o hand x.2 := by
    induction h with
    | nil => exact fun _ => rfl
    | cons hs _ ih =>
      intro i
      simp only [List.zipIdx_cons, List.all_cons, ih (i + 1), Slot.found_of_displaced hs]
  exact hall 0

/-! ### Rules -/

theorem Rule.matched_of_displaced {r s : Rule} (h : r.Displaced hand.length s) :
    s.matched o hand = r.matched o hand := by
  cases h with
  | simple hp => exact Pattern.matched_of_displaced hp
  | @conditional c c' p p' q q' hc hp hq =>
    have helse : q'.any (·.matched o hand) = q.any (·.matched o hand) := by
      cases hq with
      | none => rfl
      | some hq => exact Pattern.matched_of_displaced hq
    cases hand with
    | nil => rfl
    | cons first hand =>
      have hfirst : c'.holds o ⟨first, some (first :: hand), 0⟩ =
          c.holds o ⟨first, some (first :: hand), 0⟩ := Condition.holds_of_displaced hc
      simp only [matched, hfirst, helse, Pattern.matched_of_displaced hp]

/-- **Positions that are not valid are inert**: to displace them behind the end of a hand, each to
an index of its own, changes neither whether the hand matches a rule nor whether a comparison or a
condition holds anywhere in it. And no access by index ever gets stuck, whatever the positions. -/
theorem Rule.verdicts_of_displaced (o : BoolOrdering) (hand : List Properties) :
    (∀ r s : Rule, r.Displaced hand.length s → s.matched o hand = r.matched o hand) ∧
      (∀ (item : Properties) (j : Nat) (c d : Condition), c.Displaced hand.length d →
        d.holds o ⟨item, some hand, j⟩ = c.holds o ⟨item, some hand, j⟩) ∧
      (∀ (item : Properties) (j : Nat) (c d : Comparison), c.Displaced hand.length d →
        d.holds o ⟨item, some hand, j⟩ = c.holds o ⟨item, some hand, j⟩) ∧
      (∀ r : Rule, r.matchedIndexed? o hand = some (r.matched o hand)) ∧
      ∀ (x : Context) (c : Condition), c.holdsIndexed? o x = some (c.holds o x) :=
  ⟨fun _ _ => matched_of_displaced, fun _ _ _ _ => Condition.holds_of_displaced,
    fun _ _ _ _ => Comparison.holds_of_displaced, fun r => r.matchedIndexed?_eq o hand,
    fun x c => c.holdsIndexed?_eq o x⟩

/-- The last item is a king of rank 13, but it is neither at index -1 nor at the one after the
current index, so the condition fails as it does at indices that the hand does not have. -/
theorem Rule.verdicts_of_displaced_king :
    Rule.Displaced 2
        (.conditional (.join .or
          (.comparison ⟨⟨"rank", some (.absolute (-1))⟩, .eq, .string "13"⟩)
          (.comparison ⟨⟨"rank", none⟩, .lt, .term ⟨"rank", some (.relative 1)⟩⟩))
          [⟨"queen", none, none⟩] (some [⟨"king", none, some (.absolute 1)⟩]))
        (.conditional (.join .or
          (.comparison ⟨⟨"rank", some (.absolute 2)⟩, .eq, .string "13"⟩)
          (.comparison ⟨⟨"rank", none⟩, .lt, .term ⟨"rank", some (.absolute 7)⟩⟩))
          [⟨"queen", none, none⟩] (some [⟨"king", none, some (.absolute 1)⟩])) ∧
      (Rule.conditional (.join .or
        (.comparison ⟨⟨"rank", some (.absolute 2)⟩, .eq, .string "13"⟩)
        (.comparison ⟨⟨"rank", none⟩, .lt, .term ⟨"rank", some (.absolute 7)⟩⟩))
        [⟨"queen", none, none⟩] (some [⟨"king", none, some (.absolute 1)⟩])).matched .reject
          [.ofList [("name", .string "ace"), ("rank", .int 1)],
            .ofList [("name", .string "king"), ("rank", .int 13)]] := by
  have hdisplaced : Rule.Displaced 2
      (.conditional (.join .or
        (.comparison ⟨⟨"rank", some (.absolute (-1))⟩, .eq, .string "13"⟩)
        (.comparison ⟨⟨"rank", none⟩, .lt, .term ⟨"rank", some (.relative 1)⟩⟩))
        [⟨"queen", none, none⟩] (some [⟨"king", none, some (.absolute 1)⟩]))
      (.conditional (.join .or
        (.comparison ⟨⟨"rank", some (.absolute 2)⟩, .eq, .string "13"⟩)
        (.comparison ⟨⟨"rank", none⟩, .lt, .term ⟨"rank", some (.absolute 7)⟩⟩))
        [⟨"queen", none, none⟩] (some [⟨"king", none, some (.absolute 1)⟩])) := by
    refine .conditional (.join (.comparison ⟨⟨rfl, .some ?_⟩, rfl, .kept _⟩)
      (.comparison ⟨⟨rfl, .none⟩, rfl, .term ⟨rfl, .some ?_⟩⟩))
      (.cons ⟨rfl, .none, .none⟩ .nil) (.some (.cons ⟨rfl, .none, .some (.kept _)⟩ .nil))
    · exact .behind (by decide) (by decide)
    · exact .behind (by decide) (by decide)
  refine ⟨hdisplaced, ?_⟩
  rw [(Rule.verdicts_of_displaced .reject
    [.ofList [("name", .string "ace"), ("rank", .int 1)],
      .ofList [("name", .string "king"), ("rank", .int 13)]]).1 _ _ hdisplaced]
  decide +kernel

end Lineup
