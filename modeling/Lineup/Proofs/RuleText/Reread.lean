import Lineup.Proofs.RuleText.Printing

/-!
# What a printed rule reads back as

Numbers that are not finite are written as words. `NaN` and `inf` are names, so where a rule has
such a number its text has a property of that name (`Rule.parse_text_eq_reread`). `-inf` is none: a
minus sign stands in a rule before a digit or in an arrow, so a text that has it anywhere else,
outside of strings, is no rule (`not_derives_of_minusInfinity`).
-/

namespace Lineup

open Text (Stops stops_cons stops_nil ne_of_tells)
open RuleText Grammar

def Binary64.isMinusInfinity (x : Binary64) : Bool := !x.isNaN && !x.isFinite && x.negative

/-! ### Numbers read as names -/

def Operand.reread : Operand → Operand
  | .number x => if x.isFinite then .number x else .term (.named (x.text .plain))
  | v => v

def Condition.reread : Condition → Condition
  | .comparison c => .comparison { c with operand := c.operand.reread }
  | .group c => .group c.reread
  | .join op l r => .join op l.reread r.reread

/-- A rule in which each number that is not finite has become a property. -/
def Rule.reread (r : Rule) : Rule := r.mapConditions Condition.reread

theorem Operand.text_reread (v : Operand) : v.reread.text = v.text := by
  cases v with
  | number x =>
    rw [reread]
    split
    · rfl
    · exact String.append_empty
  | _ => rfl

theorem Condition.text_reread (c : Condition) : c.reread.text = c.text := by
  induction c with
  | comparison c => simp only [reread, text, Comparison.text, Operand.text_reread]
  | group c ih => simp only [reread, text, ih]
  | join op l r ihl ihr => simp only [reread, text, ihl, ihr]

theorem Operand.finite_reread (v : Operand) : ∀ x ∈ v.reread.numbers, x.isFinite := by
  cases v with
  | number x =>
    rw [reread]
    split
    · rename_i hx
      simpa [numbers] using hx
    · exact List.forall_mem_nil _
  | _ => exact List.forall_mem_nil _

theorem Condition.finite_reread (c : Condition) : ∀ x ∈ c.reread.numbers, x.isFinite := by
  induction c with
  | comparison c => exact c.operand.finite_reread
  | group c ih => exact ih
  | join op l r ihl ihr => exact List.forall_mem_append.2 ⟨ihl, ihr⟩

theorem isName_text {x : Binary64} (hx : x.isFinite = false) (hneg : x.isMinusInfinity = false) :
    IsName (x.text .plain) := by
  cases hn : x.isNaN with
  | true =>
    have htext : x.text .plain = "NaN" := by
      simp only [Binary64.text, Binary64.chars, hn]
      rfl
    rw [htext]
    decide
  | false =>
    have hpos : x.negative = false := by simpa [Binary64.isMinusInfinity, hn, hx] using hneg
    rw [Binary64.text_of_infinite hn hx, hpos]
    decide

theorem Operand.Spelled.reread {v : Operand} (hv : v.Spelled)
    (hx : ∀ x ∈ v.numbers, x.isMinusInfinity = false) : v.reread.Spelled := by
  cases v with
  | number x =>
    rw [Operand.reread]
    split
    · trivial
    · rename_i hfin
      exact ⟨isName_text (by simpa using hfin) (hx x List.mem_cons_self), nofun⟩
  | _ => exact hv

theorem Condition.Spelled.reread {c : Condition} (hc : c.Spelled)
    (hx : ∀ x ∈ c.numbers, x.isMinusInfinity = false) : c.reread.Spelled := by
  induction c with
  | comparison c => exact ⟨hc.subject, hc.operand.reread hx⟩
  | group c ih => exact ih hc hx
  | join op l r ihl ihr =>
    obtain ⟨hxl, hxr⟩ := List.forall_mem_append.1 hx
    exact ⟨ihl hc.1 hxl, ihr hc.2 hxr⟩

theorem Condition.positions_reread (c : Condition) : c.reread.positions = c.positions := by
  induction c with
  | comparison c =>
    obtain ⟨t, o, v⟩ := c
    cases v with
    | number x =>
      rw [reread, Operand.reread]
      split <;> rfl
    | _ => rfl
  | group c ih => exact ih
  | join op l r ihl ihr => simp only [reread, positions, ihl, ihr]

theorem Rule.text_mapConditions {f : Condition → Condition} (hf : ∀ c, (f c).text = c.text)
    (r : Rule) : (r.mapConditions f).text = r.text := by
  have hslot : Slot.text ∘ Slot.mapCondition f = Slot.text := by
    funext s
    obtain ⟨n, c, p⟩ := s
    cases c with
    | none => rfl
    | some c => simp [Slot.text, Slot.mapCondition, hf]
  have hpattern : ∀ p : Pattern, (p.mapConditions f).text = p.text := by
    intro p
    rw [Pattern.text, Pattern.mapConditions, List.map_map, hslot, Pattern.text]
  cases r with
  | simple p => exact hpattern p
  | conditional c p q => cases q <;> simp only [mapConditions, text, hf, hpattern, Option.map]

theorem Rule.Spelled.mapConditions {f : Condition → Condition} {r : Rule} (hr : r.Spelled)
    (hf : ∀ c ∈ r.conditions, c.Spelled → (f c).Spelled) : (r.mapConditions f).Spelled := by
  have hslot : ∀ s : Slot, (∀ c ∈ s.conditions, c.Spelled → (f c).Spelled) → s.Spelled →
      (s.mapCondition f).Spelled := by
    rintro ⟨n, c, p⟩ hf ⟨hn, hc, hp, hone⟩
    refine ⟨hn, ?_, hp, hone.imp_left (congrArg (Option.map f))⟩
    intro d hd
    obtain ⟨c', rfl, rfl⟩ := Option.map_eq_some_iff.1 hd
    exact hf c' List.mem_cons_self (hc c' rfl)
  have hpattern : ∀ p : Pattern, (∀ c ∈ p.conditions, c.Spelled → (f c).Spelled) → p.Spelled →
      (p.mapConditions f).Spelled := by
    intro p hf hp
    refine ⟨by simpa [Pattern.mapConditions] using hp.ne_nil, ?_⟩
    intro s hs
    obtain ⟨s', hs', rfl⟩ := List.mem_map.1 hs
    exact hslot s' (List.forall_mem_flatMap.1 hf s' hs') (hp.slots s' hs')
  cases r with
  | simple p => exact hpattern p hf hr
  | conditional c p q =>
    obtain ⟨hc, hp, hq⟩ := hr
    rw [Rule.conditions, List.forall_mem_cons, List.forall_mem_append] at hf
    obtain ⟨hfc, hfp, hfq⟩ := hf
    refine ⟨hfc hc, hpattern p hfp hp, ?_⟩
    intro q' hq'
    obtain ⟨q, rfl, rfl⟩ := Option.map_eq_some_iff.1 hq'
    exact hpattern q (List.forall_mem_flatMap.1 hfq q List.mem_cons_self) (hq q rfl)

theorem Rule.text_reread (r : Rule) : r.reread.text = r.text :=
  text_mapConditions Condition.text_reread r

theorem Rule.Spelled.reread {r : Rule} (hr : r.Spelled)
    (hx : ∀ x ∈ r.numbers, x.isMinusInfinity = false) : r.reread.Spelled :=
  hr.mapConditions fun c hmem hc => hc.reread (List.forall_mem_flatMap.1 hx c hmem)

theorem Rule.finite_reread (r : Rule) : ∀ x ∈ r.reread.numbers, x.isFinite := by
  rw [numbers, reread, conditions_mapConditions, List.forall_mem_flatMap, List.forall_mem_map]
  exact fun c _ => c.finite_reread

theorem Rule.fault?_reread (r : Rule) : r.reread.fault? = r.fault? := by
  rw [fault?_eq, fault?_eq, reread, positions_mapConditions Condition.positions_reread]

/-- What the text of a rule reads back as, unless there is minus infinity in it. -/
theorem Rule.parse_text_eq_reread {r : Rule} (hr : r.Spelled) (hv : r.fault? = none)
    (hx : ∀ x ∈ r.numbers, x.isMinusInfinity = false) :
    Rule.parse r.text = .ok r.reread.ungrouped := by
  have hvalid : r.reread.ungrouped.fault? = none := by rw [fault?_ungrouped, fault?_reread, hv]
  rw [← text_reread]
  exact parse_of_derives (derives_text (hr.reread hx) r.finite_reread) hvalid

/-! ### Stray minus signs -/

namespace RuleText

/-- Whether there is a minus sign, outside of strings, that stands neither before a digit nor in an
arrow. -/
def strayMinusFrom (inString : Bool) : List Char → Bool
  | [] => false
  | '"' :: s => strayMinusFrom (!inString) s
  | '-' :: s =>
    !inString && !s.head?.any (fun c => c.isDigit || c = '>') || strayMinusFrom inString s
  | _ :: s => strayMinusFrom inString s

def strayMinus (s : List Char) : Bool := strayMinusFrom false s

theorem strayMinusFrom_cons {b : Bool} {c : Char} {s : List Char} (hq : c ≠ '"') (hm : c ≠ '-') :
    strayMinusFrom b (c :: s) = strayMinusFrom b s := by
  rw [strayMinusFrom]
  · exact hq
  · exact hm

theorem strayMinusFrom_string {v s : List Char} (h : ∀ c ∈ v, isStringPart c) :
    strayMinusFrom true (v ++ '"' :: s) = strayMinusFrom false s := by
  induction v with
  | nil => rfl
  | cons c v ih =>
    obtain ⟨hc, hv⟩ := List.forall_mem_cons.1 h
    have hq : c ≠ '"' := ne_of_tells hc rfl
    by_cases hm : c = '-'
    · subst hm
      exact ih hv
    · rw [List.cons_append, strayMinusFrom_cons hq hm, ih hv]

theorem tokenwise_strayMinus : Tokenwise strayMinus where
  plain {c s} hc := by
    apply strayMinusFrom_cons
    · exact ne_of_tells hc rfl
    · exact ne_of_tells hc rfl
  arrow := rfl
  minus {c s} hc := by
    have hhead : (c :: s).head?.any (fun c => c.isDigit || c = '>') = true := by simp [hc]
    rw [strayMinus, strayMinusFrom, hhead]
    rfl
  quoted hv := strayMinusFrom_string hv

variable {r : List Char}

theorem strayMinus_operand {v : Operand} (hv : v.Spelled) (hr : Stops isWordPart r) :
    strayMinus (v.text.toList ++ r) = (v.numbers.any Binary64.isMinusInfinity || strayMinus r) := by
  by_cases hx : ∀ x ∈ v.numbers, x.isMinusInfinity = false
  · have hany : v.numbers.any Binary64.isMinusInfinity = false := by simpa using hx
    have hphrase := operandPhrase_text (hv.reread hx) v.finite_reread mark_self hr
    rw [hany, Bool.false_or, ← v.text_reread]
    exact tokenwise_strayMinus.operand hphrase
  · cases v with
    | number x =>
      have hneg : x.isMinusInfinity := by simpa [Operand.numbers] using hx
      have htext : (Operand.number x).text = "-inf" := by
        simp only [Binary64.isMinusInfinity, Bool.and_eq_true, Bool.not_eq_true'] at hneg
        rw [Operand.text, Binary64.text_of_infinite hneg.1.1 hneg.1.2, hneg.2]
        rfl
      rw [htext, Operand.numbers, List.any_cons, hneg, Bool.true_or, Bool.true_or]
      rfl
    | _ => exact absurd (List.forall_mem_nil _) hx

theorem strayMinus_comparison {c : Comparison} (hc : c.Spelled) (hr : Stops isWordPart r) :
    strayMinus (c.text.toList ++ r) =
      (c.operand.numbers.any Binary64.isMinusInfinity || strayMinus r) := by
  have hf := tokenwise_strayMinus
  obtain ⟨ht, hv⟩ := hc
  simp only [Comparison.text, String.toList_append, List.append_assoc]
  rw [hf.term (termPhrase_text ht mark_self stops_space), hf.append (by decide),
    hf.relation mark_self, hf.append (by decide), strayMinus_operand hv hr]

theorem strayMinus_condition {c : Condition} (hc : c.Spelled) (hr : Stops isWordPart r) :
    strayMinus (c.text.toList ++ r) = (c.numbers.any Binary64.isMinusInfinity || strayMinus r) := by
  have hf := tokenwise_strayMinus
  induction c generalizing r with
  | comparison c => exact strayMinus_comparison hc hr
  | group c ih =>
    simp only [Condition.text, String.toList_append, List.append_assoc]
    rw [hf.append (by decide), ih hc stops_closing, hf.append (by decide)]
    rfl
  | join op c d ihc ihd =>
    simp only [Condition.text, String.toList_append, List.append_assoc]
    rw [hf.append (by decide), ihc hc.1 stops_space, hf.word (word_connective op _),
      hf.append (by decide), ihd hc.2 stops_closing, hf.append (by decide),
      Condition.numbers, List.any_append, Bool.or_assoc]

/-- Whether a condition has minus infinity in it. -/
def minusInfinite (c : Condition) : Bool := c.numbers.any Binary64.isMinusInfinity

theorem strayMinus_slot {v : Slot} (hv : v.Spelled) (hr : Stops isWordPart r) :
    strayMinus (v.text.toList ++ r) = (v.conditions.any minusInfinite || strayMinus r) := by
  have hf := tokenwise_strayMinus
  cases hc : v.constraint with
  | none =>
    have hnone : v.conditions = [] := by rw [Slot.conditions, hc]; rfl
    have hphrase := slotPhrase_text hv (by rw [hnone]; exact List.forall_mem_nil _) mark_self hr
    rw [hf.slot hphrase, hnone]
    rfl
  | some c =>
    have hsome : v.conditions = [c] := by rw [Slot.conditions, hc]; rfl
    have hp : v.position = none := hv.one.resolve_left (by simp [hc])
    simp only [Slot.text, hc, hp, positionText, String.toList_append, List.append_assoc]
    rw [hf.wordParts hv.name.1.isWordPart, hf.append (by decide),
      strayMinus_condition (hv.constraint c hc) stops_closing, hf.append (by decide),
      hsome, List.any_cons, List.any_nil, Bool.or_false]
    rfl

theorem strayMinus_pattern {p : Pattern} (hp : ∀ v ∈ p, v.Spelled) (hr : Stops isWordPart r) :
    strayMinus (p.text.toList ++ r) = (p.conditions.any minusInfinite || strayMinus r) := by
  have hf := tokenwise_strayMinus
  induction p with
  | nil => rfl
  | cons v p ih =>
    obtain ⟨hv, hp⟩ := List.forall_mem_cons.1 hp
    cases p with
    | nil =>
      rw [Pattern.text, List.map_cons, List.map_nil, String.intercalate_singleton,
        strayMinus_slot hv hr, Pattern.conditions, List.flatMap_singleton]
    | cons w p =>
      have htext : Pattern.text (v :: w :: p) = v.text ++ ", " ++ Pattern.text (w :: p) :=
        String.intercalate_cons_cons
      have hconditions : Pattern.conditions (v :: w :: p) =
          v.conditions ++ Pattern.conditions (w :: p) := List.flatMap_cons
      simp only [htext, String.toList_append, List.append_assoc]
      rw [strayMinus_slot hv stops_comma, hf.append (by decide), ih hp, hconditions,
        List.any_append, Bool.or_assoc]

theorem strayMinus_rule {v : Rule} (hv : v.Spelled) :
    strayMinus v.text.toList = v.conditions.any minusInfinite := by
  have hf := tokenwise_strayMinus
  have hlast : ∀ {p : Pattern}, p.Spelled →
      strayMinus p.text.toList = p.conditions.any minusInfinite := by
    intro p hp
    have h := strayMinus_pattern hp.slots (stops_nil isWordPart)
    rwa [List.append_nil, show strayMinus [] = false from rfl, Bool.or_false] at h
  have hthen : ∀ t, Stops isWordPart (" then ".toList ++ t) := fun _ => stops_cons.2 rfl
  have helse : ∀ t, Stops isWordPart (" else ".toList ++ t) := fun _ => stops_cons.2 rfl
  cases v with
  | simple p => exact hlast hv
  | conditional c p q =>
    obtain ⟨hc, hp, hq⟩ := hv
    cases q with
    | none =>
      simp only [Rule.text, String.append_empty, String.toList_append, List.append_assoc]
      rw [hf.append (by decide), strayMinus_condition hc (hthen _), hf.append (by decide), hlast hp]
      simp [Rule.conditions, minusInfinite]
    | some q =>
      simp only [Rule.text, String.toList_append, List.append_assoc]
      rw [hf.append (by decide), strayMinus_condition hc (hthen _), hf.append (by decide),
        strayMinus_pattern hp.slots (helse _), hf.append (by decide), hlast (hq q rfl)]
      simp [Rule.conditions, minusInfinite]

/-- No text of a rule with minus infinity in it is a rule. -/
theorem not_derives_of_minusInfinity {v w : Rule} (hv : v.Spelled) {x : Binary64}
    (hx : x ∈ v.numbers) (hneg : x.isMinusInfinity) : ¬ Derives v.text.toList w := by
  intro h
  have hstray := tokenwise_strayMinus.derives h
  rw [strayMinus_rule hv] at hstray
  obtain ⟨c, hc, hmem⟩ := List.mem_flatMap.1 hx
  have hinfinite : minusInfinite c := List.any_eq_true.2 ⟨x, hmem, hneg⟩
  rw [List.any_eq_true.2 ⟨c, hc, hinfinite⟩] at hstray
  cases hstray

end RuleText

end Lineup
