import Lineup.RuleText.Rule

/-!
# When reading succeeds

The readers of conditions call each other and keep the proof that their rest is shorter. What they
answer is said here without that proof (`Answers`), one equivalence for each reader, in which its
success is put down to the success of the readers that it calls.
-/

namespace Lineup.RuleText

open Text (skipBlanks Remains)

/-- Says that a reading succeeds with `a` and leaves `r`. -/
def Answers {P : List Char → Prop} (x : Except Failure (α × { r : List Char // P r })) (a : α)
    (r : List Char) : Prop :=
  ∃ h, x = .ok (a, ⟨r, h⟩)

theorem Answers.property {P : List Char → Prop} {x : Except Failure (α × { r : List Char // P r })}
    {a : α} {r : List Char} : Answers x a r → P r
  | ⟨h, _⟩ => h

@[simp] theorem answers_ok {P : List Char → Prop} {x : α × { r : List Char // P r }} {a : α}
    {r : List Char} :
    Answers (.ok x : Except Failure (α × { r : List Char // P r })) a r ↔ x.1 = a ∧ x.2.1 = r := by
  constructor
  · rintro ⟨h, he⟩
    cases he
    exact ⟨rfl, rfl⟩
  · rintro ⟨rfl, rfl⟩
    exact ⟨x.2.2, rfl⟩

@[simp] theorem not_answers_error {P : List Char → Prop} {f : Failure} {a : α} {r : List Char} :
    ¬ Answers (.error f : Except Failure (α × { r : List Char // P r })) a r :=
  nofun

/-- What follows a reading that succeeded. -/
theorem exists_answers_ok {P : List Char → Prop} {x : α × { r : List Char // P r }}
    {Q : α → List Char → Prop} :
    (∃ a r, Answers (.ok x : Except Failure (α × { r : List Char // P r })) a r ∧ Q a r) ↔
      Q x.1 x.2.1 := by
  constructor
  · rintro ⟨a, r, h, hQ⟩
    obtain ⟨rfl, rfl⟩ := answers_ok.1 h
    exact hQ
  · intro hQ
    exact ⟨x.1, x.2.1, answers_ok.2 ⟨rfl, rfl⟩, hQ⟩

/-! ### Conditions -/

theorem answers_chain {op : Connective} {s r : List Char} {d : Condition} :
    Answers (chain op s) d r ↔
      ∃ c q, Answers (link op s) c q ∧ Answers (moreLinks op c q) d r := by
  rw [chain]
  cases hl : link op s with
  | error f => simp
  | ok cq =>
    rw [exists_answers_ok]
    cases hm : moreLinks op cq.1 cq.2.1 with
    | error f => simp [hm]
    | ok dr => simp [hm]

@[simp] theorem answers_link_or {s r : List Char} {c : Condition} :
    Answers (link .or s) c r ↔ Answers (chain .and s) c r := by
  rw [link]

@[simp] theorem answers_link_and {s r : List Char} {c : Condition} :
    Answers (link .and s) c r ↔ Answers (primary s) c r := by
  rw [link]

theorem answers_moreLinks_none {op : Connective} {left d : Condition} {s r : List Char}
    (h : keyword? op.word (skipBlanks s) = none) :
    Answers (moreLinks op left s) d r ↔ left = d ∧ s = r := by
  rw [moreLinks]
  split
  · exact answers_ok
  · rename_i t ht
    rw [h] at ht
    cases ht

theorem answers_moreLinks_some {op : Connective} {left d : Condition} {s t r : List Char}
    (h : keyword? op.word (skipBlanks s) = some t) :
    Answers (moreLinks op left s) d r ↔
      ∃ c q, Answers (link op t) c q ∧ Answers (moreLinks op (.join op left c) q) d r := by
  rw [moreLinks]
  split
  · rename_i hn
    rw [h] at hn
    cases hn
  · rename_i t' ht
    obtain rfl : t = t' := Option.some.inj (h.symm.trans ht)
    cases hl : link op t with
    | error f => simp
    | ok cq =>
      rw [exists_answers_ok]
      cases hm : moreLinks op (.join op left cq.1) cq.2.1 with
      | error f => simp [hm]
      | ok dr => simp [hm]

theorem answers_primary_open {s t r : List Char} {c : Condition} (h : skipBlanks s = '(' :: t) :
    Answers (primary s) c r ↔ ∃ q, Answers (condition t) c q ∧ skipBlanks q = ')' :: r := by
  rw [primary]
  split
  · rename_i t' ht
    obtain rfl : t = t' := (List.cons.inj (h.symm.trans ht)).2
    cases hc : chain .or t with
    | error f => simp [condition, hc]
    | ok dq =>
      obtain ⟨d, q⟩ := dq
      simp only [condition, hc, answers_ok]
      split
      · rename_i r' hr
        rw [answers_ok]
        constructor
        · rintro ⟨rfl, rfl⟩
          exact ⟨q.1, ⟨rfl, rfl⟩, hr⟩
        · rintro ⟨_, ⟨rfl, rfl⟩, hr'⟩
          exact ⟨rfl, (List.cons.inj (hr.symm.trans hr')).2⟩
      · rename_i hr
        refine ⟨fun h => absurd h not_answers_error, ?_⟩
        rintro ⟨_, ⟨rfl, rfl⟩, hr'⟩
        exact absurd hr' (hr r)
  · rename_i hne
    exact absurd h (hne t)

theorem answers_primary_plain {s r : List Char} {c : Condition}
    (h : ∀ t, skipBlanks s ≠ '(' :: t) :
    Answers (primary s) c r ↔ ∃ d, comparison (skipBlanks s) = .ok (d, r) ∧ .comparison d = c := by
  rw [primary]
  split
  · rename_i t ht
    exact absurd ht (h t)
  · split
    · rename_i f hf
      simp [hf]
    · rename_i d q hd
      rw [answers_ok]
      constructor
      · rintro ⟨rfl, rfl⟩
        exact ⟨d, hd, rfl⟩
      · rintro ⟨d', hd', rfl⟩
        obtain ⟨rfl, rfl⟩ := Prod.mk.inj (Except.ok.inj (hd.symm.trans hd'))
        exact ⟨rfl, rfl⟩

end Lineup.RuleText
