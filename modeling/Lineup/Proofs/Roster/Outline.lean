import Lineup.Proofs.Binary64.Numerals
import Lineup.Proofs.Text.Quoted
import Lineup.Proofs.Value.Order
import Lineup.Roster.Outline

/-!
# Outlines tell rosters apart

An outline shows every name, property, test and value of a roster, and of a check the label
(`Roster.outline_eq_iff`). It leaves out what a check does, whether requirements that are met are
logged, and which NaN a value is. Every part shows where it ends, so the parts of two outlines that
are the same can be put side by side.
-/

namespace Lineup

open Text (delimits_quoted delimits_quotedList delimits_bracketed delimits_parenthesized)

/-! ### Values -/

namespace Value

/-- Says that two values are one, or both are NaN. -/
def Same (a b : Value) : Prop := a = b ∨ a.isFloatNaN ∧ b.isFloatNaN

/-- The first letter of an outline. -/
def initial : Value → Char
  | .null => 'N'
  | .bool _ => 'B'
  | .int _ => 'I'
  | .float _ => 'F'
  | .string _ => 'S'

theorem head?_outline (v : Value) : v.outline.toList.head? = some v.initial := by
  cases v <;> simp [outline, initial]

theorem delimits_outline_bool : Delimits (fun b => (bool b).outline.toList) (· = ·) :=
  delimits_parenthesized "Bool(" (by decide) (by decide)

theorem delimits_outline_int : Delimits (fun n => (int n).outline.toList) (· = ·) := by
  refine delimits_parenthesized "Int(" (fun m n => ⟨fun h => ?_, fun h => h ▸ rfl⟩) fun n => ?_
  · have hread := Binary64.signedDigits?_toString m.toInt
    rw [h, Binary64.signedDigits?_toString] at hread
    exact Int64.toInt_inj.1 (Option.some.inj hread).symm
  · rw [← Numeral.chars_ofInt]
    exact (Numeral.ofInt n.toInt).notMem_chars rfl (by decide)

theorem delimits_outline_float :
    Delimits (fun x => (float x).outline.toList) (fun x y => x = y ∨ x.isNaN ∧ y.isNaN) := by
  have hstyle : NumberStyle.marked.Marks := ⟨rfl, .inl rfl⟩
  refine delimits_parenthesized "Float(" (fun x y => ?_) fun x => ?_
  · rw [Binary64.text, Binary64.text, String.ofList_inj, Binary64.chars_eq_iff hstyle]
  · rw [Binary64.text, String.toList_ofList]
    exact x.notMem_chars hstyle rfl (by decide)

theorem delimits_outline_string : Delimits (fun s => (string s).outline.toList) (· = ·) :=
  delimits_quoted.between "String(" ")"

/-- The kind of a value is seen from the first letter, and the rest by kinds. -/
theorem delimits_outline : Delimits (fun v => v.outline.toList) Same where
  ne_nil v h := by
    have hhead := v.head?_outline
    rw [h] at hhead
    cases hhead
  append_iff := by
    intro v w s t
    have hinitial (h : v.outline.toList ++ s = w.outline.toList ++ t) : v.initial = w.initial := by
      have hhead := congrArg List.head? h
      rw [List.head?_append, List.head?_append, head?_outline, head?_outline] at hhead
      exact Option.some.inj hhead
    cases v <;> cases w
    case null.null => simp [Same]
    case bool.bool b c => exact delimits_outline_bool.append_iff.trans (by simp [Same, isFloatNaN])
    case int.int m n => exact delimits_outline_int.append_iff.trans (by simp [Same, isFloatNaN])
    case float.float x y =>
      exact delimits_outline_float.append_iff.trans (by simp [Same, isFloatNaN])
    case string.string =>
      exact delimits_outline_string.append_iff.trans (by simp [Same, isFloatNaN])
    all_goals
      exact iff_of_false (fun h => absurd (hinitial h) (by simp [initial]))
        (by simp [Same, isFloatNaN])

end Value

/-! ### Tests -/

/-- Says that the same is expected, NaN being the same as NaN. -/
inductive Expected.Same : Expected → Expected → Prop
  | one {v w : Value} : v.Same w → Same (.one v) (.one w)
  | many {l l' : List Value} : List.Forall₂ Value.Same l l' → Same (.many l) (.many l')

namespace Expected

theorem delimits_outline_one : Delimits (fun v => (one v).outline.toList) Value.Same :=
  Value.delimits_outline.between "One(" ")"

theorem delimits_outline_many :
    Delimits (fun l => (many l).outline.toList) (List.Forall₂ Value.Same) :=
  (delimits_bracketed Value.delimits_outline fun v => by
    rw [v.head?_outline]
    cases v <;> simp [Value.initial]).between "Many(" ")"

theorem delimits_outline : Delimits (fun e => e.outline.toList) Same where
  ne_nil e := by
    cases e with
    | one v => exact delimits_outline_one.ne_nil v
    | many l => exact delimits_outline_many.ne_nil l
  append_iff := by
    intro e e' s t
    cases e <;> cases e'
    case one.one =>
      have hsame (v w : Value) : v.Same w ↔ Same (.one v) (.one w) := ⟨.one, fun | .one h => h⟩
      exact delimits_outline_one.append_iff.trans (and_congr_left' (hsame _ _))
    case many.many =>
      have hsame (l l' : List Value) : List.Forall₂ Value.Same l l' ↔ Same (.many l) (.many l') :=
        ⟨.many, fun | .many h => h⟩
      exact delimits_outline_many.append_iff.trans (and_congr_left' (hsame _ _))
    all_goals exact iff_of_false (by simp [outline]) nofun

end Expected

theorem Test.mem_all (t : Test) : t ∈ Test.all := by
  cases t with
  | related r => cases r <;> decide
  | _ => decide

/-- The names of tests hold no comma. -/
theorem Test.delimits_outline :
    Delimits (fun t : Test => (t.outline ++ ", value: ").toList) (· = ·) := by
  have hinj : ∀ t ∈ Test.all, ∀ u ∈ Test.all, t.outline.toList = u.outline.toList → t = u := by
    decide
  have hcomma : ∀ t ∈ Test.all, ',' ∉ t.outline.toList := by decide
  have hbody := delimits_of_notMem (f := fun t : Test => t.outline.toList)
    (fun t u => ⟨hinj t t.mem_all u u.mem_all, fun h => h ▸ rfl⟩) fun t => hcomma t t.mem_all
  refine (hbody.append " value: ".toList).congr (fun t => ?_) fun _ _ => Iff.rfl
  rw [String.toList_append, List.append_assoc]
  rfl

/-! ### Requirements -/

/-- Says that the same is tested, or that checks have one label. -/
inductive Requirement.Same : Requirement → Requirement → Prop
  | test (property : String) (t : Test) {e e' : Expected} :
    e.Same e' → Same (.test property t e) (.test property t e')
  | check (label : String) (run run' : Check) : Same (.check label run) (.check label run')

namespace Requirement

theorem outline_test (property : String) (t : Test) (e : Expected) :
    (test property t e).outline = "Compare \x7b property: " ++ Text.quoted property ++ ", op: " ++
      t.outline ++ ", value: " ++ e.outline ++ " \x7d" := rfl

theorem outline_check (label : String) (run : Check) : (check label run).outline =
    "Predicate \x7b label: " ++ Text.quoted label ++ ", .. \x7d" := rfl

theorem delimits_outline_test :
    Delimits (fun p : String × Test × Expected => (test p.1 p.2.1 p.2.2).outline.toList)
      (fun p q => p.1 = q.1 ∧ p.2.1 = q.2.1 ∧ p.2.2.Same q.2.2) := by
  have hvalue := Test.delimits_outline.prod (Expected.delimits_outline.append " \x7d".toList)
  have hall := (delimits_quoted.between "Compare \x7b property: " ", op: ").prod hvalue
  refine hall.congr (fun p => ?_) fun _ _ => Iff.rfl
  simp only [outline_test, String.toList_append, List.append_assoc]

theorem delimits_outline_check :
    Delimits (fun p : String × Check => (check p.1 p.2).outline.toList) (fun p q => p.1 = q.1) :=
  (delimits_quoted.between "Predicate \x7b label: " ", .. \x7d").on Prod.fst

/-- A test is told from a check by the first letter. -/
theorem delimits_outline : Delimits (fun r => r.outline.toList) Same where
  ne_nil r := by
    cases r with
    | test property t e => exact delimits_outline_test.ne_nil (property, t, e)
    | check label run => exact delimits_outline_check.ne_nil (label, run)
  append_iff := by
    intro r r' s s'
    cases r <;> cases r'
    case test.test p t e p' t' e' =>
      refine (delimits_outline_test.append_iff (a := (p, t, e)) (b := (p', t', e'))).trans
        (and_congr_left' ⟨?_, ?_⟩)
      · rintro ⟨rfl, rfl, he⟩
        exact .test p t he
      · rintro (⟨-, -, he⟩ | _)
        exact ⟨rfl, rfl, he⟩
    case check.check label run label' run' =>
      refine (delimits_outline_check.append_iff (a := (label, run)) (b := (label', run'))).trans
        (and_congr_left' ⟨?_, ?_⟩)
      · rintro rfl
        exact .check label run run'
      · rintro (_ | _)
        rfl
    all_goals exact iff_of_false (by simp [outline_test, outline_check]) nofun

end Requirement

namespace Roster

theorem outline_eq (r : Roster) : r.outline =
    "SequenceRule \x7b conditions: " ++ listOutline (r.requirements.map Requirement.outline) ++
      ", sequence: " ++ Text.quotedList r.names ++ ", .. \x7d" := rfl

theorem delimits_outline : Delimits (fun r : Roster => r.outline.toList) fun r r' =>
    List.Forall₂ Requirement.Same r.requirements r'.requirements ∧ r.names = r'.names := by
  have hrequirements := (delimits_bracketed Requirement.delimits_outline fun r => by
    cases r <;> simp [Requirement.outline_test, Requirement.outline_check]).between
      "SequenceRule \x7b conditions: " ", sequence: "
  have hall := (hrequirements.prod (delimits_quotedList.append ", .. \x7d".toList)).on
    fun r : Roster => (r.requirements, r.names)
  refine hall.congr (fun r => ?_) fun _ _ => Iff.rfl
  simp only [outline_eq, listOutline, String.toList_append, List.append_assoc]

/-- **Outlines tell rosters apart**: two rosters have one outline just if they ask for the same
names and the same of every item, where of a check only the label counts and any NaN is the same. -/
theorem outline_eq_iff {r r' : Roster} : r.outline = r'.outline ↔
    List.Forall₂ Requirement.Same r.requirements r'.requirements ∧ r.names = r'.names :=
  String.toList_inj.symm.trans delimits_outline.eq_iff

end Roster

end Lineup
