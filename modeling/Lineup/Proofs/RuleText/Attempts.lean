import Lineup.RuleText.Alternatives

/-!
# What attempts come to

An attempt agrees with what a reader answers if it comes to the same and says what was asked for
(`Agrees`), and it settles the matter if it leaves no alternative either (`Settles`). Combinations
of readers keep the one and the other, step by step.
-/

namespace Lineup.RuleText

open Text (skipBlanks)

namespace Attempt

/-- Says that an attempt comes to what is read, or fails in the same way and says what was asked
for. -/
inductive Agrees : Attempt α → Reading α → Prop
  | done (a : α) (r : List Char) : Agrees (.done a r) (.ok (a, r))
  | failed {f : Failure} (final : Bool) (hf : f.trouble ≠ .unexpected) :
    Agrees (.failed final f) (.error f)

/-- Says that an attempt comes to what is read and leaves no alternative. -/
structure Settles (a : Attempt α) (x : Reading α) : Prop where
  agrees : a.Agrees x
  final : ∀ f, a ≠ .failed false f

theorem Settles.eq_done {b : Attempt α} {a : α} {r : List Char} (h : b.Settles (.ok (a, r))) :
    b = .done a r := by
  cases h.agrees
  rfl

theorem Settles.eq_failed {b : Attempt α} {f : Failure} (h : b.Settles (.error f)) :
    b = .failed true f := by
  obtain ⟨hagrees, hfinal⟩ := h
  cases hagrees with
  | failed final _ =>
    cases final with
    | false => exact absurd rfl (hfinal f)
    | true => rfl

theorem Settles.trouble {b : Attempt α} {f : Failure} (h : b.Settles (.error f)) :
    f.trouble ≠ .unexpected := by
  cases h.agrees
  assumption

theorem settles_done (a : α) (r : List Char) : Settles (.done a r) (.ok (a, r)) :=
  ⟨.done a r, nofun⟩

theorem settles_failed {f : Failure} (hf : f.trouble ≠ .unexpected) :
    Settles (.failed true f : Attempt α) (.error f) := ⟨.failed true hf, nofun⟩

theorem expected_ne_unexpected (e : Expectation) : Trouble.expected e ≠ .unexpected :=
  Trouble.noConfusion

theorem agrees_expected (final : Bool) (s : List Char) (e : Expectation) :
    Agrees (.failed final ⟨s, .expected e⟩ : Attempt α) (.error ⟨s, .expected e⟩) :=
  .failed final (expected_ne_unexpected e)

theorem settles_expected (s : List Char) (e : Expectation) :
    Settles (.failed true ⟨s, .expected e⟩ : Attempt α) (.error ⟨s, .expected e⟩) :=
  settles_failed (expected_ne_unexpected e)

end Attempt

open Attempt

namespace Trial

variable {t u : Trial α} {f : α → Trial β} {x : Reading α} {y : Reading β} {s r : List Char} {a : α}
  {e : Failure}

/-! ### Combinations -/

@[simp] theorem pure_apply (a : α) (s : List Char) : (pure a : Trial α) s = .done a s := rfl

theorem bind_apply (t : Trial α) (f : α → Trial β) (s : List Char) :
    (t >>= f) s =
      match t s with
      | .done a r => f a r
      | .failed final e => .failed final e := rfl

theorem bind_done (h : t s = .done a r) : (t >>= f) s = f a r := by
  rw [bind_apply, h]

theorem bind_failed {final : Bool} (h : t s = .failed final e) : (t >>= f) s = .failed final e := by
  rw [bind_apply, h]

@[simp] theorem blanks_bind (f : Unit → Trial β) (s : List Char) :
    (blanks >>= f) s = f () (skipBlanks s) := rfl

theorem exactly_of_eq {w : String} (h : s = w.toList ++ r) : exactly w s = .done () r := by
  subst h
  rw [exactly, if_pos (List.prefix_append _ r), ← String.length_toList, List.drop_left]

theorem exactly_of_ne {w : String} (h : ∀ r, s ≠ w.toList ++ r) :
    exactly w s = .failed false ⟨s, .unexpected⟩ :=
  if_neg fun ⟨r, hr⟩ => h r hr.symm

theorem agrees_bind (ht : (t s).Agrees x) (herror : ∀ e, x = .error e → y = .error e)
    (hok : ∀ a r, x = .ok (a, r) → (f a r).Agrees y) : ((t >>= f) s).Agrees y := by
  rw [bind_apply]
  generalize t s = b at ht
  cases ht with
  | done a r => exact hok a r rfl
  | failed final hf =>
    rw [herror _ rfl]
    exact .failed final hf

theorem settles_bind (ht : (t s).Settles x) (herror : ∀ e, x = .error e → y = .error e)
    (hok : ∀ a r, x = .ok (a, r) → (f a r).Settles y) : ((t >>= f) s).Settles y := by
  refine ⟨agrees_bind ht.agrees herror fun a r h => (hok a r h).agrees, ?_⟩
  obtain ⟨ht, hfinal⟩ := ht
  rw [bind_apply]
  generalize t s = b at ht hfinal
  cases ht with
  | done a r => exact (hok a r rfl).final
  | failed final hf =>
    cases final with
    | false => exact absurd rfl (hfinal _)
    | true => nofun

theorem agrees_return (g : α → β) (ht : (t s).Agrees x) (herror : ∀ e, x = .error e → y = .error e)
    (hok : ∀ a r, x = .ok (a, r) → y = .ok (g a, r)) :
    ((do return g (← t) : Trial β) s).Agrees y := by
  refine agrees_bind ht herror fun a r ha => ?_
  rw [hok a r ha]
  exact .done _ r

theorem settles_return (g : α → β) (ht : (t s).Settles x)
    (herror : ∀ e, x = .error e → y = .error e)
    (hok : ∀ a r, x = .ok (a, r) → y = .ok (g a, r)) :
    ((do return g (← t) : Trial β) s).Settles y := by
  refine settles_bind ht herror fun a r ha => ?_
  rw [hok a r ha]
  exact settles_done _ r

theorem commit_of_done (ht : t s = .done a r) : commit t s = .done a r := by
  rw [commit, ht]

theorem commit_of_failed {final : Bool} (ht : t s = .failed final e) :
    commit t s = .failed true e := by
  rw [commit, ht]

theorem commit_bind (t : Trial α) (f : α → Trial β) :
    commit (t >>= f) = (commit t >>= fun a => commit (f a)) := by
  funext s
  rw [bind_apply, commit, commit, bind_apply]
  cases t s <;> rfl

theorem settles_commit (ht : (t s).Agrees x) : (commit t s).Settles x := by
  rw [commit]
  generalize t s = b at ht
  cases ht with
  | done a r => exact settles_done a r
  | failed final hf => exact settles_failed hf

theorem asking_of_done {e : Expectation} (ht : t s = .done a r) : asking e t s = .done a r := by
  rw [asking, ht]

theorem asking_of_unexpected {e : Expectation} {final : Bool}
    (ht : t s = .failed final ⟨r, .unexpected⟩) :
    asking e t s = .failed final ⟨r, .expected e⟩ := by
  rw [asking, ht]

/-- Who says what was asked for is not asked again. -/
theorem agrees_asking {e : Expectation} (ht : (t s).Agrees x) : (asking e t s).Agrees x := by
  rw [asking]
  split
  · rename_i hs
    rw [hs] at ht
    cases ht with
    | failed _ hf => exact absurd rfl hf
  · exact ht

theorem alt_of_failed (ht : t s = .failed false e) : alt t u s = u s := by
  rw [alt, ht]

/-- What leaves no alternative decides. -/
theorem settles_alt (ht : (t s).Settles x) : (alt t u s).Settles x := by
  rw [alt]
  split
  · rename_i hs
    exact absurd hs (ht.final _)
  · exact ht

theorem optional_of_failed (ht : t s = .failed false e) : optional t s = .done none s := by
  rw [optional, ht]

theorem optional_of_done (ht : t s = .done a r) : optional t s = .done (some a) r := by
  rw [optional, ht]

theorem optional_of_final (ht : t s = .failed true e) : optional t s = .failed true e := by
  rw [optional, ht]

theorem ofOption_of_none {read? : List Char → Option (α × List Char)} (h : read? s = none) :
    ofOption read? s = .failed false ⟨s, .unexpected⟩ := by
  rw [ofOption, h]

theorem ofOption_of_some {read? : List Char → Option (α × List Char)} (h : read? s = some (a, r)) :
    ofOption read? s = .done a r := by
  rw [ofOption, h]

theorem keyword_of_none {w : String} (h : keyword? w s = none) :
    keyword w s = .failed false ⟨s, .unexpected⟩ := by
  rw [keyword, ofOption_of_none]
  rw [h, Option.map_none]

theorem keyword_of_some {w : String} (h : keyword? w s = some r) : keyword w s = .done () r := by
  rw [keyword, ofOption_of_some]
  rw [h, Option.map_some]

theorem agrees_ofReading {read : List Char → Reading α}
    (h : ∀ f, read s = .error f → f.trouble ≠ .unexpected) :
    (ofReading read s).Agrees (read s) := by
  rw [ofReading]
  split
  · rename_i hr
    rw [hr]
    exact .done _ _
  · rename_i f hf
    rw [hf]
    exact .failed _ (h f hf)

theorem many_of_failed (ht : t s = .failed false e) : many t s = .done [] s := by
  rw [many, ht]

theorem many_of_done (ht : t s = .done a r) (hr : r.length < s.length) :
    many t s = (do return a :: (← many t) : Trial (List α)) r := by
  rw [many, ht]
  simp only [if_pos hr]
  rw [bind_apply]
  cases many t r <;> rfl

theorem many_of_final (ht : t s = .failed true e) : many t s = .failed true e := by
  rw [many, ht]

theorem many_bind_of_done {f : List α → Trial β} (ht : t s = .done a r)
    (hr : r.length < s.length) : (many t >>= f) s = (do f (a :: (← many t)) : Trial β) r := by
  rw [bind_apply, many_of_done ht hr, bind_apply, bind_apply]
  cases many t r <;> rfl

theorem many₁_of_failed {final : Bool} (ht : t s = .failed final e) :
    many₁ t s = .failed final e :=
  bind_failed ht

theorem many₁_of_done (ht : t s = .done a r) (hr : r.length < s.length) :
    many₁ t s = many t s := by
  rw [many₁, bind_done ht, many_of_done ht hr]

end Trial

end Lineup.RuleText
