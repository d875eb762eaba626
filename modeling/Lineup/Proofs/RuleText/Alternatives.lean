import Lineup.Proofs.RuleText.Attempts

/-!
# Readers with and without alternatives

A reader that looks ahead answers what trying the alternatives comes to (`Trial.wholeRule_eq`).
Where the first word of a phrase is missing the attempt fails without asking for anything, and
whoever tries it says what was asked for. Behind that word the attempt agrees with the reader. The
readers of conditions enter without their proofs about what they leave (`bare`).
-/

namespace Lineup.RuleText

open Text (skipBlanks skipBlanks_idem Remains remains_of_skipBlanks)

/-! ### Readers of conditions -/

/-- A reading without the proof about what it leaves. -/
def bare {P : List Char → Prop} :
    Except Failure (α × { r : List Char // P r }) → Reading α
  | .ok (a, r) => .ok (a, r.1)
  | .error f => .error f

@[simp] theorem bare_ok {P : List Char → Prop} (x : α × { r : List Char // P r }) :
    bare (.ok x) = .ok (x.1, x.2.1) := rfl

@[simp] theorem bare_error {P : List Char → Prop} (f : Failure) :
    bare (.error f : Except Failure (α × { r : List Char // P r })) = .error f := rfl

theorem property_of_bare {P : List Char → Prop} {x : Except Failure (α × { r : List Char // P r })}
    {a : α} {r : List Char} (h : bare x = .ok (a, r)) : P r := by
  cases x with
  | error f => cases h
  | ok b =>
    cases h
    exact b.2.2

theorem bare_link_or (s : List Char) : bare (link .or s) = bare (chain .and s) := by
  rw [link]

theorem bare_link_and (s : List Char) : bare (link .and s) = bare (primary s) := by
  rw [link]

theorem bare_chain (op : Connective) (s : List Char) :
    bare (chain op s) =
      match bare (link op s) with
      | .error f => .error f
      | .ok (c, r) => bare (moreLinks op c r) := by
  rw [chain]
  cases link op s with
  | error f => rfl
  | ok c =>
    dsimp only [bare_ok]
    cases moreLinks op c.1 c.2.1 <;> rfl

theorem bare_moreLinks_of_none {op : Connective} {s : List Char}
    (h : keyword? op.word (skipBlanks s) = none) (left : Condition) :
    bare (moreLinks op left s) = .ok (left, s) := by
  rw [moreLinks]
  split
  · rfl
  · rename_i ht
    rw [h] at ht
    cases ht

theorem bare_moreLinks_of_some {op : Connective} {s t : List Char}
    (h : keyword? op.word (skipBlanks s) = some t) (left : Condition) :
    bare (moreLinks op left s) =
      match bare (link op t) with
      | .error f => .error f
      | .ok (c, r) => bare (moreLinks op (.join op left c) r) := by
  rw [moreLinks]
  split
  · rename_i hn
    rw [h] at hn
    cases hn
  · rename_i t' ht
    obtain rfl : t = t' := Option.some.inj (h.symm.trans ht)
    cases link op t with
    | error f => rfl
    | ok c =>
      dsimp only [bare_ok]
      cases moreLinks op (.join op left c.1) c.2.1 <;> rfl

/-- Reads a condition behind an opening bracket, and the closing bracket. -/
def parenthesized (s : List Char) : Reading Condition :=
  match bare (condition s) with
  | .error f => .error f
  | .ok (c, r) =>
    match skipBlanks r with
    | ')' :: r' => .ok (c, r')
    | r' => .error ⟨r', .expected .closing⟩

theorem bare_primary_of_eq {s t : List Char} (h : skipBlanks s = '(' :: t) :
    bare (primary s) = parenthesized t := by
  rw [primary, parenthesized]
  split
  · rename_i t' ht
    obtain rfl : t = t' := (List.cons.inj (h.symm.trans ht)).2
    rw [condition]
    cases chain .or t with
    | error f => rfl
    | ok c =>
      dsimp only [bare_ok]
      split
      · rename_i hr
        simp only [bare_ok, hr]
      · rename_i hne
        split
        · rename_i r' hr'
          exact absurd hr' (hne r')
        · rfl
  · rename_i hne
    exact absurd h (hne t)

theorem bare_primary_of_ne {s : List Char} (h : ∀ t, skipBlanks s ≠ '(' :: t) :
    bare (primary s) =
      match comparison (skipBlanks s) with
      | .error f => .error f
      | .ok (c, r) => .ok (.comparison c, r) := by
  rw [primary]
  split
  · rename_i t ht
    exact absurd ht (h t)
  · split
    · rename_i hf
      rw [hf]
      rfl
    · rename_i hc
      simp only [bare_ok, hc]

open Attempt

namespace Trial

variable {s r : List Char}

/-! ### Comparisons -/

theorem trouble_of_index {f : Failure} (h : index s = .error f) : f.trouble ≠ .unexpected := by
  simp only [index] at h
  split at h
  · cases h
    exact expected_ne_unexpected _
  · split at h
    · cases h
    · cases h
      exact expected_ne_unexpected _

theorem trouble_of_stringTail {f : Failure} (h : stringTail s = .error f) :
    f.trouble ≠ .unexpected := by
  rw [stringTail] at h
  split at h
  · cases h
  · cases h
    exact (by decide : Trouble.openString ≠ .unexpected)

theorem settles_position? (s : List Char) : (optional position s).Settles (position? s) := by
  rw [position?]
  split
  · rename_i r hr
    have hposition : position s =
        (do return .absolute (← commit (ofReading index)) : Trial Position) (skipBlanks r) := by
      rw [position, blanks_bind, bind_done (exactly_of_eq hr), blanks_bind]
    cases hi : index (skipBlanks r) with
    | error f =>
      simp only [optional, hposition, bind_apply, commit, ofReading, hi]
      exact settles_failed (trouble_of_index hi)
    | ok n =>
      simp only [optional, hposition, bind_apply, commit, ofReading, hi]
      exact settles_done _ n.2
  · rename_i hne
    have hposition : position s = .failed false ⟨skipBlanks s, .unexpected⟩ := by
      rw [position, blanks_bind, bind_failed (exactly_of_ne hne)]
    rw [optional_of_failed hposition]
    exact settles_done none s

theorem property_of_none (h : name? s = none) : property s = .failed false ⟨s, .unexpected⟩ := by
  rw [property, bind_failed (ofOption_of_none h)]

theorem settles_property {n : String} (h : name? s = some (n, r)) (e : Expectation) :
    (property s).Settles (term e s) := by
  rw [property, bind_done (ofOption_of_some h), term, h]
  exact settles_return _ (settles_position? r) (fun f hf => by simp only [hf])
    fun p q hp => by simp only [hp]

theorem settles_quoted (r : List Char) : (quoted ('"' :: r)).Settles (stringTail r) := by
  have hquote : exactly "\"" ('"' :: r) = .done () r := exactly_of_eq rfl
  rw [quoted, bind_done hquote]
  exact settles_commit (agrees_ofReading fun _ => trouble_of_stringTail)

theorem agrees_term (s : List Char) :
    (asking .value (do return .term (← property) : Trial Operand) s).Agrees
      (match term .value s with
      | .ok (v, r) => .ok (.term v, r)
      | .error f => .error f) := by
  cases hn : name? s with
  | none =>
    rw [asking_of_unexpected (bind_failed (property_of_none hn)), term, hn]
    exact agrees_expected _ _ _
  | some n =>
    exact agrees_asking (agrees_return _ (settles_property hn .value).agrees
      (fun f hf => by rw [hf]) fun v r hv => by rw [hv])

theorem agrees_operand (s : List Char) : (operand s).Agrees (RuleText.operand s) := by
  rw [RuleText.operand.eq_def]
  split
  · rename_i r
    exact agrees_asking (settles_alt (settles_return _ (settles_quoted r)
      (fun f hf => by rw [hf]) fun v r' hv => by rw [hv])).agrees
  · rename_i hne
    have hquoted : quoted s = .failed false ⟨s, .unexpected⟩ := by
      rw [quoted, bind_failed (exactly_of_ne hne)]
    simp only [operand, asking, alt, bind_apply, hquoted, ofOption, keyword, boolean?, pure_apply]
    cases hn : number? s with
    | some x => exact .done _ _
    | none =>
      cases ht : keyword? "true" s with
      | some r => exact .done _ _
      | none =>
        cases hf : keyword? "false" s with
        | some r => exact .done _ _
        | none => exact agrees_term s

theorem comparison_of_none (h : name? s = none) :
    comparison s = .failed false ⟨s, .unexpected⟩ := by
  rw [comparison, bind_failed (property_of_none h)]

theorem agrees_comparison {n : String} (h : name? s = some (n, r)) :
    (comparison s).Agrees (RuleText.comparison s) := by
  rw [comparison, RuleText.comparison]
  refine agrees_bind (settles_property h .condition).agrees ?_ ?_
  · intro f hf
    rw [hf]
  intro subject r hsubject
  rw [hsubject, blanks_bind]
  dsimp only
  cases ho : relation? (skipBlanks r) with
  | none =>
    rw [bind_failed (commit_of_failed (asking_of_unexpected (ofOption_of_none ho)))]
    exact agrees_expected _ _ _
  | some o =>
    rw [bind_done (commit_of_done (asking_of_done (ofOption_of_some ho))), blanks_bind]
    exact agrees_return _ (settles_commit (agrees_operand (skipBlanks o.2))).agrees
      (fun f hf => by simp only [hf]) fun v r' hv => by simp only [hv]

/-! ### Conditions -/

theorem closing_of_eq (h : s = ')' :: r) : closing s = .done () r :=
  asking_of_done (exactly_of_eq h)

theorem closing_of_ne (h : ∀ r, s ≠ ')' :: r) : closing s = .failed false ⟨s, .expected .closing⟩ :=
  asking_of_unexpected (exactly_of_ne h)

theorem settles_parenthesized {inner : Trial Condition}
    (hinner : (inner s).Agrees (bare (RuleText.condition s))) :
    ((do let c ← commit inner; blanks; commit closing; return c : Trial Condition) s).Settles
      (parenthesized s) := by
  rw [parenthesized]
  refine settles_bind (settles_commit hinner) ?_ ?_
  · intro f hf
    rw [hf]
  · intro c r hc
    rw [hc, blanks_bind]
    dsimp only
    split
    · rename_i r' hr
      rw [hr, bind_done (commit_of_done (closing_of_eq rfl))]
      exact settles_done c r'
    · rename_i hne
      rw [bind_failed (commit_of_failed (closing_of_ne hne))]
      exact settles_expected _ _

/-- In parentheses there is what `inner` reads, and without them there is a comparison. -/
theorem agrees_primary {inner : Trial Condition}
    (hinner : ∀ r, r.length < s.length → (inner r).Agrees (bare (RuleText.condition r))) :
    (primary inner s).Agrees (bare (RuleText.primary s)) := by
  rw [primary, blanks_bind]
  by_cases hopen : ∃ r, skipBlanks s = '(' :: r
  · obtain ⟨r, hr⟩ := hopen
    have hopen : exactly "(" (skipBlanks s) = .done () r := exactly_of_eq hr
    rw [bare_primary_of_eq hr]
    refine agrees_asking (settles_alt ?_).agrees
    rw [bind_done hopen]
    exact settles_parenthesized (hinner r (remains_of_skipBlanks hr).2)
  · have hne : ∀ r, skipBlanks s ≠ '(' :: r := fun r hr => hopen ⟨r, hr⟩
    have hfailed : exactly "(" (skipBlanks s) = .failed false ⟨skipBlanks s, .unexpected⟩ :=
      exactly_of_ne hne
    rw [bare_primary_of_ne hne]
    cases hn : name? (skipBlanks s) with
    | none =>
      rw [asking_of_unexpected ((alt_of_failed (bind_failed hfailed)).trans
        (bind_failed (comparison_of_none hn))), RuleText.comparison, term, hn]
      exact agrees_expected _ _ _
    | some n =>
      refine agrees_asking ?_
      rw [alt_of_failed (bind_failed hfailed)]
      exact agrees_return _ (agrees_comparison hn) (fun f hf => by rw [hf])
        fun c r hc => by rw [hc]

/-- A chain that goes on is read from left to right. By induction on the length of the text. -/
theorem agrees_moreLinks {op : Connective} {link : Trial Condition} (left : Condition)
    (hlink : ∀ r, r.length < s.length → (link r).Agrees (bare (RuleText.link op r))) :
    ((do
      let more ← many (do blanks; keyword op.word; commit link)
      return more.foldl (.join op) left : Trial Condition) s).Agrees
      (bare (RuleText.moreLinks op left s)) := by
  induction hn : s.length using Nat.strongRecOn generalizing s left with
  | _ n ih =>
    subst hn
    cases hk : keyword? op.word (skipBlanks s) with
    | none =>
      have hnext : (do blanks; keyword op.word; commit link : Trial Condition) s =
          .failed false ⟨skipBlanks s, .unexpected⟩ := by
        rw [blanks_bind, bind_failed (keyword_of_none hk)]
      rw [bare_moreLinks_of_none hk, bind_done (many_of_failed hnext)]
      exact .done left s
    | some t =>
      have ht : Remains t s := (remains_keyword? hk).skipBlanks
      have hnext :
          (do blanks; keyword op.word; commit link : Trial Condition) s = commit link t := by
        rw [blanks_bind, bind_done (keyword_of_some hk)]
      rw [bare_moreLinks_of_some hk]
      have hfirst := settles_commit (hlink t ht.2)
      rw [← hnext] at hfirst
      cases hl : bare (RuleText.link op t) with
      | error f =>
        rw [hl] at hfirst
        rw [bind_failed (many_of_final hfirst.eq_failed)]
        exact .failed true hfirst.trouble
      | ok c =>
        obtain ⟨c, r⟩ := c
        rw [hl] at hfirst
        have hr : r.length < s.length := Nat.lt_trans (property_of_bare hl).2 ht.2
        rw [many_bind_of_done hfirst.eq_done hr]
        exact ih r.length hr _ (fun u hu => hlink u (Nat.lt_trans hu hr)) rfl

theorem agrees_chain {op : Connective} {link : Trial Condition}
    (hlink : ∀ r, r.length ≤ s.length → (link r).Agrees (bare (RuleText.link op r))) :
    (chain op link s).Agrees (bare (RuleText.chain op s)) := by
  rw [bare_chain]
  refine agrees_bind (hlink s (Nat.le_refl _)) ?_ ?_
  · intro f hf
    rw [hf]
  · intro c r hc
    rw [hc]
    have hr : r.length < s.length := (property_of_bare hc).2
    exact agrees_moreLinks c fun u hu => hlink u (Nat.le_of_lt (Nat.lt_trans hu hr))

/-- To nest as deep as there are characters is enough. -/
theorem agrees_nested {depth : Nat} (hs : s.length < depth) :
    (nested depth s).Agrees (bare (RuleText.condition s)) := by
  induction depth generalizing s with
  | zero => exact absurd hs (Nat.not_lt_zero _)
  | succ depth ih =>
    rw [nested, RuleText.condition]
    refine agrees_chain fun r hr => ?_
    rw [bare_link_or]
    refine agrees_chain fun u hu => ?_
    rw [bare_link_and]
    refine agrees_primary fun v hv => ih ?_
    omega

theorem agrees_condition (s : List Char) : (condition s).Agrees (bare (RuleText.condition s)) :=
  agrees_nested (Nat.lt_succ_self _)

/-! ### Patterns -/

theorem slotTail_of_eq {t : List Char} (h : skipBlanks s = '(' :: t) (name : String) :
    slotTail name s =
      match parenthesized t with
      | .error f => .error f
      | .ok (c, r) => .ok (⟨name, some c, none⟩, r) := by
  rw [slotTail, h, parenthesized]
  cases hc : RuleText.condition t with
  | error f => simp only [hc, bare_error]
  | ok c =>
    simp only [hc, bare_ok]
    generalize skipBlanks c.2.1 = q
    split <;> simp_all

theorem slotTail_of_ne (h : ∀ t, skipBlanks s ≠ '(' :: t) (name : String) :
    slotTail name s =
      match position? s with
      | .error f => .error f
      | .ok (p, r) => .ok (⟨name, none, p⟩, r) := by
  rw [slotTail]
  split
  · rename_i t ht
    exact absurd ht (h t)
  · rfl

theorem slot_of_none (h : name? s = none) : slot s = .failed false ⟨s, .unexpected⟩ := by
  rw [slot, bind_failed (ofOption_of_none h)]

theorem settles_constraint {t : List Char} (h : skipBlanks s = '(' :: t) :
    ((do
      blanks
      exactly "("
      commit do
        let c ← condition
        blanks
        closing
        return c : Trial Condition) s).Settles (parenthesized t) := by
  rw [blanks_bind, bind_done (exactly_of_eq h)]
  simp only [commit_bind]
  exact settles_parenthesized (agrees_condition t)

theorem settles_slot {n : String} (h : name? s = some (n, r)) (e : Expectation) :
    (slot s).Settles (RuleText.slot e s) := by
  rw [slot, bind_done (ofOption_of_some h), RuleText.slot, h]
  dsimp only
  by_cases hopen : ∃ t, skipBlanks r = '(' :: t
  · obtain ⟨t, ht⟩ := hopen
    have hconstraint := settles_constraint ht
    rw [slotTail_of_eq ht]
    cases hc : parenthesized t with
    | error f =>
      rw [hc] at hconstraint
      rw [bind_failed (optional_of_final hconstraint.eq_failed)]
      exact settles_failed hconstraint.trouble
    | ok c =>
      rw [hc] at hconstraint
      rw [bind_done (optional_of_done hconstraint.eq_done)]
      exact settles_done _ c.2
  · have hne : ∀ t, skipBlanks r ≠ '(' :: t := fun t ht => hopen ⟨t, ht⟩
    have hexactly : exactly "(" (skipBlanks r) = .failed false ⟨skipBlanks r, .unexpected⟩ :=
      exactly_of_ne hne
    rw [bind_done (optional_of_failed (by rw [blanks_bind, bind_failed hexactly])),
      slotTail_of_ne hne]
    exact settles_return _ (settles_position? r) (fun f hf => by rw [hf])
      fun p q hp => by rw [hp]

theorem settles_nextSlot (s : List Char) : (nextSlot s).Settles (RuleText.slot .element s) := by
  refine settles_commit ?_
  cases hn : name? s with
  | none =>
    rw [asking_of_unexpected (slot_of_none hn), RuleText.slot, hn]
    exact agrees_expected _ _ _
  | some n => exact agrees_asking (settles_slot hn .element).agrees

/-- Slots are read as long as a separator is followed by one. By induction on the length of the
text. -/
theorem settles_moreSlots {sep : Separator} {next : Trial Slot}
    (hnone : ∀ s, sep.next? s = none → ∃ f, next s = .failed false f)
    (hsome : ∀ s r, sep.next? s = some r → (next s).Settles (RuleText.slot .element r))
    (s : List Char) : (many next s).Settles (moreSlots sep s) := by
  induction hn : s.length using Nat.strongRecOn generalizing s with
  | _ n ih =>
    subst hn
    rw [moreSlots]
    split
    · rename_i hn
      obtain ⟨f, hf⟩ := hnone s hn
      rw [many_of_failed hf]
      exact settles_done [] s
    · rename_i t ht
      have hslot := hsome s t ht
      split
      · rename_i f hf
        rw [hf] at hslot
        rw [many_of_final hslot.eq_failed]
        exact settles_failed hslot.trouble
      · rename_i v r hv
        have hr : r.length < s.length := ((remains_slot hv).after (Separator.next?_suffix ht)).2
        rw [hv] at hslot
        rw [many_of_done hslot.eq_done hr]
        exact settles_return _ (ih r.length hr r rfl) (fun f hf => by rw [hf])
          fun l r' hl => by rw [hl]

theorem settles_spaced (s : List Char) :
    (many (do blanks; slot) s).Settles (moreSlots .blanks s) := by
  refine settles_moreSlots (fun s hs => ?_) (fun s r hr => ?_) s
  · refine ⟨⟨skipBlanks s, .unexpected⟩, ?_⟩
    rw [blanks_bind]
    refine slot_of_none ?_
    simpa [Separator.next?] using hs
  · rw [Separator.next?] at hr
    split at hr
    · rename_i hn
      obtain ⟨n, hn⟩ := Option.isSome_iff_exists.1 hn
      cases hr
      exact settles_slot hn .element
    · cases hr

theorem comma_of_none (h : Separator.comma.next? s = none) :
    (do blanks; exactly ","; blanks; nextSlot : Trial Slot) s =
      .failed false ⟨skipBlanks s, .unexpected⟩ := by
  rw [blanks_bind, bind_failed (exactly_of_ne ?_)]
  intro r hr
  rw [Separator.next?, hr] at h
  cases h

theorem settles_comma (h : Separator.comma.next? s = some r) :
    ((do blanks; exactly ","; blanks; nextSlot : Trial Slot) s).Settles
      (RuleText.slot .element r) := by
  rw [Separator.next?] at h
  split at h
  · rename_i t ht
    cases h
    rw [blanks_bind, bind_done (exactly_of_eq ht), blanks_bind]
    exact settles_nextSlot _
  · cases h

theorem settles_commas (s : List Char) :
    (many (do blanks; exactly ","; blanks; nextSlot) s).Settles (moreSlots .comma s) :=
  settles_moreSlots (fun _ hs => ⟨_, comma_of_none hs⟩) (fun _ _ hr => settles_comma hr) s

theorem settles_commas₁ (h : Separator.comma.next? s = some r) :
    (many₁ (do blanks; exactly ","; blanks; nextSlot) s).Settles (moreSlots .comma s) := by
  have hmany := settles_commas s
  have hfirst := settles_comma h
  cases hv : RuleText.slot .element r with
  | error f =>
    rw [hv] at hfirst
    rw [many_of_final hfirst.eq_failed] at hmany
    rw [many₁, bind_failed hfirst.eq_failed]
    exact hmany
  | ok v =>
    rw [hv] at hfirst
    have hq : v.2.length < s.length := ((remains_slot hv).after (Separator.next?_suffix h)).2
    rw [many₁_of_done hfirst.eq_done hq]
    exact hmany

theorem head?_of_comma (h : Separator.comma.next? s = some r) :
    (skipBlanks s).head? = some ',' := by
  rw [Separator.next?] at h
  split at h
  · rename_i t ht
    rw [ht, List.head?_cons]
  · cases h

theorem head?_of_no_comma (h : Separator.comma.next? s = none) :
    (skipBlanks s).head? ≠ some ',' := by
  intro hs
  obtain ⟨t, ht⟩ := List.head?_eq_some_iff.1 hs
  rw [Separator.next?, ht] at h
  cases h

/-- Behind the first slot a comma decides for commas, and anything but an arrow for blanks. -/
theorem agrees_separated {first : Slot} (hslot : slot s = .done first r) :
    (alt commaPattern spacePattern s).Agrees
      (match moreSlots (if (skipBlanks r).head? = some ',' then .comma else .blanks) r with
      | .error f => .error f
      | .ok (l, r') => .ok (first :: l, r')) := by
  cases hc : Separator.comma.next? r with
  | some t =>
    rw [if_pos (head?_of_comma hc)]
    refine (settles_alt ?_).agrees
    rw [commaPattern, bind_done hslot]
    exact settles_return _ (settles_commas₁ hc) (fun f hf => by rw [hf])
      fun l r' hl => by rw [hl]
  | none =>
    have hcommas : commaPattern s = .failed false ⟨skipBlanks r, .unexpected⟩ := by
      rw [commaPattern, bind_done hslot, bind_failed (many₁_of_failed (comma_of_none hc))]
    rw [if_neg (head?_of_no_comma hc), alt_of_failed hcommas, spacePattern, bind_done hslot]
    exact agrees_return _ (settles_spaced r).agrees (fun f hf => by rw [hf])
      fun l r' hl => by rw [hl]

/-- Where there is no name, none of the alternatives begins. -/
theorem alternatives_of_none (h : name? s = none) :
    alt arrowPattern (alt commaPattern spacePattern) s = .failed false ⟨s, .unexpected⟩ := by
  have hslot := slot_of_none h
  have harrow : arrowPattern s = .failed false ⟨s, .unexpected⟩ := bind_failed hslot
  have hcommas : commaPattern s = .failed false ⟨s, .unexpected⟩ := bind_failed hslot
  rw [alt_of_failed harrow, alt_of_failed hcommas]
  exact bind_failed hslot

theorem settles_arrow {first : Slot} {t : List Char} (hslot : slot s = .done first r)
    (ht : skipBlanks r = '-' :: '>' :: t) :
    (arrowPattern s).Settles
      (match RuleText.slot .element (skipBlanks t) with
      | .error f => .error f
      | .ok (second, r') => .ok ([first, second], r')) := by
  rw [arrowPattern, bind_done hslot, blanks_bind, bind_done (exactly_of_eq ht), blanks_bind]
  exact settles_return _ (settles_nextSlot (skipBlanks t)) (fun f hf => by rw [hf])
    fun second r' hsecond => by rw [hsecond]

theorem arrow_of_ne {first : Slot} (hslot : slot s = .done first r)
    (hne : ∀ t, skipBlanks r ≠ '-' :: '>' :: t) :
    arrowPattern s = .failed false ⟨skipBlanks r, .unexpected⟩ := by
  rw [arrowPattern, bind_done hslot, blanks_bind, bind_failed (exactly_of_ne hne)]

/-- The alternatives are told apart by what follows the first slot. -/
theorem agrees_pattern (s : List Char) : (pattern s).Agrees (RuleText.pattern s) := by
  rw [pattern, blanks_bind, RuleText.pattern]
  cases hn : name? (skipBlanks s) with
  | none =>
    rw [asking_of_unexpected (alternatives_of_none hn), RuleText.slot, hn]
    exact agrees_expected _ _ _
  | some n =>
    have hslot := settles_slot hn .sequence
    refine agrees_asking ?_
    cases hv : RuleText.slot .sequence (skipBlanks s) with
    | error f =>
      rw [hv] at hslot
      refine (settles_alt ?_).agrees
      rw [arrowPattern, bind_failed hslot.eq_failed]
      exact settles_failed hslot.trouble
    | ok v =>
      obtain ⟨first, r⟩ := v
      rw [hv] at hslot
      have hslot := hslot.eq_done
      dsimp only
      split
      · rename_i t ht
        exact (settles_alt (settles_arrow hslot ht)).agrees
      · rename_i hne
        rw [alt_of_failed (arrow_of_ne hslot hne)]
        exact agrees_separated hslot

/-! ### Rules -/

theorem settles_alternative (s : List Char) :
    (optional (do blanks; keyword "else"; commit pattern) s).Settles (alternative s) := by
  rw [alternative]
  cases hk : keyword? "else" (skipBlanks s) with
  | none =>
    rw [optional_of_failed (by rw [blanks_bind, bind_failed (keyword_of_none hk)])]
    exact settles_done none s
  | some t =>
    have helse :
        (do blanks; keyword "else"; commit pattern : Trial Pattern) s = commit pattern t := by
      rw [blanks_bind, bind_done (keyword_of_some hk)]
    have hpattern := settles_commit (agrees_pattern t)
    rw [← helse] at hpattern
    cases hp : RuleText.pattern t with
    | error f =>
      rw [hp] at hpattern
      simp only [optional_of_final hpattern.eq_failed, hp]
      exact settles_failed hpattern.trouble
    | ok p =>
      rw [hp] at hpattern
      simp only [optional_of_done hpattern.eq_done, hp]
      exact settles_done _ p.2

theorem settles_conditionalRule {t : List Char} (h : keyword? "if" s = some t) :
    (conditionalRule s).Settles (conditionalTail t) := by
  rw [conditionalRule, bind_done (keyword_of_some h), conditionalTail]
  have hcondition := settles_commit (agrees_condition t)
  cases hc : RuleText.condition t with
  | error f =>
    rw [hc] at hcondition
    rw [bind_failed hcondition.eq_failed]
    exact settles_failed hcondition.trouble
  | ok c =>
    obtain ⟨c, r, hr⟩ := c
    rw [hc, bare_ok] at hcondition
    rw [bind_done hcondition.eq_done, blanks_bind]
    dsimp only
    cases hk : keyword? "then" (skipBlanks r) with
    | none =>
      rw [bind_failed (commit_of_failed (asking_of_unexpected (keyword_of_none hk)))]
      exact settles_expected _ _
    | some u =>
      rw [bind_done (commit_of_done (asking_of_done (keyword_of_some hk)))]
      dsimp only
      refine settles_bind (settles_commit (agrees_pattern u)) ?_ ?_
      · intro f hf
        rw [hf]
      intro p v hp
      rw [hp]
      exact settles_return _ (settles_alternative v) (fun f hf => by simp only [hf])
        fun q w hq => by simp only [hq]

theorem agrees_rule (s : List Char) :
    (alt conditionalRule (do return .simple (← pattern)) (skipBlanks s)).Agrees
      (RuleText.rule s) := by
  rw [RuleText.rule]
  cases hk : keyword? "if" (skipBlanks s) with
  | some t => exact (settles_alt (settles_conditionalRule hk)).agrees
  | none =>
    have hconditional :
        conditionalRule (skipBlanks s) = .failed false ⟨skipBlanks s, .unexpected⟩ :=
      bind_failed (keyword_of_none hk)
    rw [alt_of_failed hconditional]
    have hpattern := agrees_pattern (skipBlanks s)
    rw [RuleText.pattern, skipBlanks_idem, ← RuleText.pattern] at hpattern
    exact agrees_return _ hpattern (fun f hf => by rw [hf]) fun p r hp => by rw [hp]

/-- **The readers look ahead rightly**: they answer what trying the alternatives of the grammar in
their order comes to, for every text. -/
theorem wholeRule_eq (s : List Char) : wholeRule s = RuleText.wholeRule s := by
  have hrule := agrees_rule s
  rw [wholeRule, RuleText.wholeRule, rule, blanks_bind, bind_apply]
  generalize alt _ _ (skipBlanks s) = b at hrule ⊢
  generalize RuleText.rule s = x at hrule ⊢
  cases hrule with
  | done r rest =>
    dsimp only
    rw [blanks_bind, pure_apply]
    cases skipBlanks rest <;> rfl
  | failed final hf => rfl

end Trial

end Lineup.RuleText
