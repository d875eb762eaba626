import Lineup.Roster.Build

/-!
# Building drafts

A draft takes every requirement and keeps them in the order in which they were added, whatever else
it is told (`Draft.requirements_ofCalls`). So building it comes down to the first requirement whose
test does not go with what it is to compare with (`Draft.build_ofCalls`), and what is added behind
that one changes nothing. In a roster that was built, every test goes with what it compares with,
and no item brings it to the case in which it could not be judged (`Test.passes?_of_fits`).
-/

namespace Lineup

theorem Expected.isNothing_iff {e : Expected} : e.isNothing ↔ e = .nothing := by
  cases e with
  | one v => cases v <;> simp [isNothing, nothing]
  | many => simp [isNothing, nothing]

/-! ### Tests and what they compare with -/

namespace Test

/-- Says that a test can be asked with what it is to compare with: a relation with a single value,
membership with a list and presence with nothing. -/
inductive Fits : Test → Expected → Prop where
  | related (r : Relation) (v : Value) : Fits (.related r) (.one v)
  | member (vs : List Value) : Fits .member (.many vs)
  | notMember (vs : List Value) : Fits .notMember (.many vs)
  | present : Fits .present .nothing
  | absent : Fits .absent .nothing

/-- Says that a test of a property does not go with what it is to compare with, and with which error
it is refused. -/
inductive Misfit (property : String) : Test → Expected → BuildError → Prop where
  | related (r : Relation) (vs : List Value) :
    Misfit property (.related r) (.many vs) (.oneNeeded property (.related r))
  | member (v : Value) : Misfit property .member (.one v) (.listNeeded property .member)
  | notMember (v : Value) : Misfit property .notMember (.one v) (.listNeeded property .notMember)
  | present {e : Expected} (h : e ≠ .nothing) :
    Misfit property .present e (.nothingNeeded property .present)
  | absent {e : Expected} (h : e ≠ .nothing) :
    Misfit property .absent e (.nothingNeeded property .absent)

/-- What an error says about a test, behind its text and its property. -/
def demand : Test → String
  | related _ => " requires a single value"
  | member | notMember => " requires a list of values"
  | present | absent => " takes no value"

variable {t : Test} {e : Expected} {property : String} {error : BuildError}

theorem Misfit.message (h : t.Misfit property e error) :
    error.message = "operator '" ++ t.text ++ "' on property '" ++ property ++ "'" ++ t.demand := by
  cases h with
  | related | member | notMember | present | absent => rfl

theorem exists_misfit_of_not_fits (property : String) (h : ¬ t.Fits e) :
    ∃ error, t.Misfit property e error := by
  cases t with
  | related r =>
    cases e with
    | one v => exact absurd (.related r v) h
    | many vs => exact ⟨_, .related r vs⟩
  | member =>
    cases e with
    | one v => exact ⟨_, .member v⟩
    | many vs => exact absurd (.member vs) h
  | notMember =>
    cases e with
    | one v => exact ⟨_, .notMember v⟩
    | many vs => exact absurd (.notMember vs) h
  | present => exact ⟨_, .present fun he => h (he ▸ .present)⟩
  | absent => exact ⟨_, .absent fun he => h (he ▸ .absent)⟩

theorem Misfit.fault? (h : t.Misfit property e error) :
    (Requirement.test property t e).fault? = some error := by
  cases h with
  | related | member | notMember => rfl
  | present hne | absent hne =>
    have hnothing : e.isNothing = false := Bool.eq_false_iff.2 fun he =>
      hne (Expected.isNothing_iff.1 he)
    simp [Requirement.fault?, admits, isMembership, isPresence, hnothing]

theorem Fits.fault? (h : t.Fits e) (property : String) :
    (Requirement.test property t e).fault? = none := by
  cases h <;> rfl

end Test

theorem Requirement.fault?_test_eq_none_iff {property : String} {t : Test} {e : Expected} :
    (Requirement.test property t e).fault? = none ↔ t.Fits e := by
  constructor
  · intro h
    apply Classical.byContradiction
    intro hnot
    obtain ⟨error, hmisfit⟩ := Test.exists_misfit_of_not_fits property hnot
    rw [hmisfit.fault?] at h
    cases h
  · intro h
    exact h.fault? property

theorem Requirement.fault?_test_eq_some_iff {property : String} {t : Test} {e : Expected}
    {error : BuildError} :
    (Requirement.test property t e).fault? = some error ↔ t.Misfit property e error := by
  constructor
  · intro h
    have hnot : ¬ t.Fits e := by
      intro hfits
      rw [hfits.fault? property] at h
      cases h
    obtain ⟨error', hmisfit⟩ := Test.exists_misfit_of_not_fits property hnot
    rw [hmisfit.fault?] at h
    cases h
    exact hmisfit
  · intro h
    exact h.fault?

/-! ### Judging a test -/

namespace Test

/-- Whether a value that is there passes a test; nothing where the test has no meaning with what it
is to compare with. -/
def passesValue? (t : Test) (a : Value) (e : Expected) : Option Bool :=
  match t, e with
  | present, _ => some true
  | absent, _ => some false
  | member, .many vs => some (vs.any a.comparesEqual)
  | notMember, .many vs => some (!vs.any a.comparesEqual)
  | related .eq, .one v => some (a.comparesEqual v)
  | related .ne, .one v => some (!a.comparesEqual v)
  | related r, .one v => some (a.related? r v = some true)
  | _, _ => none

/-- Whether a property passes a test; nothing where that comes down to a test without meaning. -/
def passes? (t : Test) (actual : Option Value) (e : Expected) : Option Bool :=
  match actual.filter (fun v => !v.isNull) with
  | none => some (t = absent || (t = related .eq && e.isNothing))
  | some a =>
    if e.isNothing then some (t = related .ne || t = present) else t.passesValue? a e

/-- A test without meaning fails. -/
theorem passesValue_eq (t : Test) (a : Value) (e : Expected) :
    t.passesValue a e = (t.passesValue? a e).getD false := by
  cases t with
  | related r => cases e <;> cases r <;> rfl
  | member | notMember => cases e <;> rfl
  | present | absent => rfl

theorem passes_eq (t : Test) (actual : Option Value) (e : Expected) :
    t.passes actual e = (t.passes? actual e).getD false := by
  rw [passes, passes?]
  cases actual.filter (fun v => !v.isNull) with
  | none => rfl
  | some a =>
    dsimp only
    split
    · rfl
    · exact t.passesValue_eq a e

theorem Fits.isSome_passesValue? {t : Test} {e : Expected} (h : t.Fits e) (a : Value) :
    (t.passesValue? a e).isSome := by
  cases h with
  | related r v => cases r <;> rfl
  | member | notMember | present | absent => rfl

/-- A test that goes with what it compares with has a meaning for every property. -/
theorem passes?_of_fits {t : Test} {e : Expected} (h : t.Fits e) (actual : Option Value) :
    t.passes? actual e = some (t.passes actual e) := by
  have hsome : (t.passes? actual e).isSome := by
    rw [passes?]
    cases actual.filter (fun v => !v.isNull) with
    | none => rfl
    | some a =>
      dsimp only
      split
      · rfl
      · exact h.isSome_passesValue? a
  obtain ⟨b, hb⟩ := Option.isSome_iff_exists.1 hsome
  rw [passes_eq, hb, Option.getD_some]

example : passes? member (some (.bool true)) (.one (.bool true)) = none := by decide

end Test

/-! ### Calls -/

namespace Draft

/-- What a draft can be told. -/
inductive Call where
  | require (r : Requirement)
  | setNames (names : List String)
  | setVerbose (verbose : Bool)

/-- The requirement that a call adds. -/
def Call.requirement? : Call → Option Requirement
  | require r => some r
  | setNames _ | setVerbose _ => none

/-- The fault of the requirement that a call adds. -/
def Call.fault? (c : Call) : Option BuildError := c.requirement?.bind Requirement.fault?

def call (d : Draft) : Call → Draft
  | .require r => d.require r
  | .setNames names => d.setNames names
  | .setVerbose verbose => d.setVerbose verbose

/-- The draft that a sequence of calls makes. -/
def ofCalls (calls : List Call) : Draft := calls.foldl call empty

theorem requirements_call (d : Draft) (c : Call) :
    (d.call c).requirements = d.requirements ++ c.requirement?.toList := by
  cases c with
  | require r => rfl
  | setNames | setVerbose => exact (List.append_nil _).symm

theorem requirements_foldl_call (calls : List Call) (d : Draft) :
    (calls.foldl call d).requirements = d.requirements ++ calls.filterMap Call.requirement? := by
  induction calls generalizing d with
  | nil => exact (List.append_nil _).symm
  | cons c calls ih =>
    rw [List.foldl_cons, ih, requirements_call, List.append_assoc, List.filterMap_cons]
    cases c.requirement? <;> rfl

/-- A draft keeps all requirements in the order of the calls that added them. -/
theorem requirements_ofCalls (calls : List Call) :
    (ofCalls calls).requirements = calls.filterMap Call.requirement? :=
  requirements_foldl_call calls empty

/-! ### Building -/

theorem build_eq_ok {d : Draft} (h : d.requirements.findSome? Requirement.fault? = none) :
    d.build = .ok ⟨d.requirements, d.names, d.verbose, h⟩ := by
  unfold build
  split
  · rfl
  · rename_i e he
    cases h.symm.trans he

theorem build_eq_error {d : Draft} {error : BuildError}
    (h : d.requirements.findSome? Requirement.fault? = some error) : d.build = .error error := by
  unfold build
  split
  · rename_i hnone
    cases h.symm.trans hnone
  · rename_i e he
    cases h.symm.trans he
    rfl

theorem build_eq_error_iff {d : Draft} {error : BuildError} :
    d.build = .error error ↔ d.requirements.findSome? Requirement.fault? = some error := by
  constructor
  · intro h
    cases hfault : d.requirements.findSome? Requirement.fault? with
    | none =>
      rw [build_eq_ok hfault] at h
      cases h
    | some e =>
      rw [build_eq_error hfault] at h
      cases h
      rfl
  · intro h
    exact build_eq_error h

theorem exists_build_eq_ok_iff {d : Draft} :
    (∃ r, d.build = .ok r) ↔ d.requirements.findSome? Requirement.fault? = none := by
  constructor
  · rintro ⟨r, hr⟩
    cases hfault : d.requirements.findSome? Requirement.fault? with
    | none => rfl
    | some e =>
      rw [build_eq_error hfault] at hr
      cases hr
  · intro h
    exact ⟨_, build_eq_ok h⟩

theorem requirements_of_build {d : Draft} {r : Roster} (h : d.build = .ok r) :
    r.requirements = d.requirements := by
  rw [build_eq_ok (exists_build_eq_ok_iff.1 ⟨r, h⟩)] at h
  exact congrArg Roster.requirements (Except.ok.inj h).symm

/-- The first faulty requirement of a draft is the one that was added by the first faulty call. -/
theorem findSome?_requirements_ofCalls (calls : List Call) :
    (ofCalls calls).requirements.findSome? Requirement.fault? = calls.findSome? Call.fault? := by
  rw [requirements_ofCalls]
  induction calls with
  | nil => rfl
  | cons c calls ih =>
    rw [List.filterMap_cons, List.findSome?_cons, ← ih, Call.fault?]
    cases c.requirement? with
    | none => rfl
    | some r => exact List.findSome?_cons

theorem Call.fault?_eq_some_iff {c : Call} {error : BuildError} :
    c.fault? = some error ↔
      ∃ p t e, c = .require (.test p t e) ∧ t.Misfit p e error := by
  constructor
  · intro h
    cases c with
    | require r =>
      cases r with
      | test p t e => exact ⟨p, t, e, rfl, Requirement.fault?_test_eq_some_iff.1 h⟩
      | check => cases h
    | setNames | setVerbose => cases h
  · rintro ⟨p, t, e, rfl, hmisfit⟩
    exact hmisfit.fault?

theorem Call.fault?_eq_none_iff {c : Call} :
    c.fault? = none ↔ ∀ p t e, c = .require (.test p t e) → t.Fits e := by
  constructor
  · rintro h p t e rfl
    exact Requirement.fault?_test_eq_none_iff.1 h
  · intro h
    cases c with
    | require r =>
      cases r with
      | test p t e => exact Requirement.fault?_test_eq_none_iff.2 (h p t e rfl)
      | check => rfl
    | setNames | setVerbose => rfl

theorem findSome?_fault?_eq_none_iff {calls : List Call} :
    calls.findSome? Call.fault? = none ↔ ∀ p t e, .require (.test p t e) ∈ calls → t.Fits e := by
  rw [List.findSome?_eq_none_iff]
  constructor
  · intro h p t e hmem
    exact Call.fault?_eq_none_iff.1 (h _ hmem) p t e rfl
  · intro h c hc
    apply Call.fault?_eq_none_iff.2
    rintro p t e rfl
    exact h p t e hc

/-- **Building reports the first misfit**: a draft can be built just if each test that it was told
goes with what it is to compare with. Else building it fails with the error that belongs to the
first test that does not, and whatever the draft is told afterwards, it fails with this error. In a
roster that was built, judging a test never comes to a case in which the test has no meaning. -/
theorem build_ofCalls (calls : List Call) :
    ((∃ r, (ofCalls calls).build = .ok r) ↔
        ∀ p t e, .require (.test p t e) ∈ calls → t.Fits e) ∧
      (∀ error, (ofCalls calls).build = .error error ↔
        ∃ before p t e after, calls = before ++ .require (.test p t e) :: after ∧
          (∀ p' t' e', .require (.test p' t' e') ∈ before → t'.Fits e') ∧
          t.Misfit p e error ∧
          error.message = "operator '" ++ t.text ++ "' on property '" ++ p ++ "'" ++ t.demand) ∧
      (∀ error, (ofCalls calls).build = .error error →
        ∀ more, (ofCalls (calls ++ more)).build = .error error) ∧
      ∀ r, (ofCalls calls).build = .ok r →
        r.requirements = calls.filterMap Call.requirement? ∧
          ∀ p t e, .test p t e ∈ r.requirements → t.Fits e ∧ ∀ i x, ∃ b,
            t.passes? (i.get? p) e = some b ∧ (Requirement.test p t e).run i x = .ok b := by
  refine ⟨?_, ?_, ?_, ?_⟩
  · rw [exists_build_eq_ok_iff, findSome?_requirements_ofCalls, findSome?_fault?_eq_none_iff]
  · intro error
    rw [build_eq_error_iff, findSome?_requirements_ofCalls, List.findSome?_eq_some_iff]
    constructor
    · rintro ⟨before, c, after, rfl, hfault, hbefore⟩
      obtain ⟨p, t, e, rfl, hmisfit⟩ := Call.fault?_eq_some_iff.1 hfault
      have hfits := findSome?_fault?_eq_none_iff.1 (List.findSome?_eq_none_iff.2 hbefore)
      exact ⟨before, p, t, e, after, rfl, hfits, hmisfit, hmisfit.message⟩
    · rintro ⟨before, p, t, e, after, rfl, hfits, hmisfit, -⟩
      have hbefore := List.findSome?_eq_none_iff.1 (findSome?_fault?_eq_none_iff.2 hfits)
      exact ⟨before, _, after, rfl, hmisfit.fault?, hbefore⟩
  · intro error h more
    rw [build_eq_error_iff, findSome?_requirements_ofCalls] at h ⊢
    rw [List.findSome?_append, h, Option.some_or]
  · intro r hr
    refine ⟨(requirements_of_build hr).trans (requirements_ofCalls calls), ?_⟩
    intro p t e hmem
    have hfault : (Requirement.test p t e).fault? = none :=
      List.findSome?_eq_none_iff.1 r.sound _ hmem
    have hfits := Requirement.fault?_test_eq_none_iff.1 hfault
    exact ⟨hfits, fun i x => ⟨_, Test.passes?_of_fits hfits (i.get? p), rfl⟩⟩

/-- The later one of two tests that do not go with what they compare with is not reported, nor does
it matter which names are set last. Without them the draft can be built, and its test has a meaning
for an item that has no rank. -/
theorem build_ofCalls_suit :
    (ofCalls [.require (.test "rank" (.related .ge) (.one .null)), .setNames ["ace"],
        .require (.test "suit" .member (.one (.string "hearts")))]).build =
      .error (.listNeeded "suit" .member) ∧
    (ofCalls ([.require (.test "rank" (.related .ge) (.one .null)), .setNames ["ace"],
          .require (.test "suit" .member (.one (.string "hearts")))] ++
        [.require (.test "rank" .present (.one (.int 3))), .setNames ["king"]])).build =
      .error (.listNeeded "suit" .member) ∧
    ∃ r, (ofCalls [.require (.test "rank" (.related .ge) (.one .null)), .setNames ["ace"]]).build =
        .ok r ∧
      .test "rank" (.related .ge) (.one .null) ∈ r.requirements ∧
      (Test.related .ge).passes? ((Item.named "ace").get? "rank") (.one .null) = some false := by
  obtain ⟨-, herror, hmore, -⟩ := build_ofCalls
    [.require (.test "rank" (.related .ge) (.one .null)), .setNames ["ace"],
      .require (.test "suit" .member (.one (.string "hearts")))]
  obtain ⟨hok, -, -, hbuilt⟩ := build_ofCalls
    [.require (.test "rank" (.related .ge) (.one .null)), .setNames ["ace"]]
  have hfits : ∀ p t e, Call.require (.test p t e) ∈
      [Call.require (.test "rank" (.related .ge) (.one .null)), .setNames ["ace"]] → t.Fits e := by
    intro p t e hmem
    simp only [List.mem_cons, Call.require.injEq, Requirement.test.injEq, List.not_mem_nil,
      or_false, reduceCtorEq] at hmem
    obtain ⟨-, rfl, rfl⟩ := hmem
    exact .related .ge .null
  have hmisfit : Test.Misfit "suit" .member (.one (.string "hearts"))
      (.listNeeded "suit" .member) := .member (.string "hearts")
  have hsuit := (herror (.listNeeded "suit" .member)).2
    ⟨_, "suit", .member, _, [], rfl, hfits, hmisfit, hmisfit.message⟩
  refine ⟨hsuit, hmore _ hsuit _, ?_⟩
  obtain ⟨r, hr⟩ := hok.2 hfits
  obtain ⟨hrequirements, htests⟩ := hbuilt r hr
  have hmem : Requirement.test "rank" (.related .ge) (.one .null) ∈ r.requirements := by
    rw [hrequirements]
    exact List.mem_singleton_self _
  obtain ⟨b, hpasses, hrun⟩ := (htests _ _ _ hmem).2 (Item.named "ace") ⟨[], 0⟩
  refine ⟨r, hr, hmem, hpasses.trans (congrArg some ?_)⟩
  exact (Except.ok.inj hrun).symm

end Draft

end Lineup
