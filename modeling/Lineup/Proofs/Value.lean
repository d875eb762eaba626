import Lineup.Proofs.Binary64.Integers
import Lineup.Proofs.Binary64.Reading
import Lineup.Rule.Verdict

/-!
# Numbers and their texts

A value that is a number and the value that is its text are the same number, up to the bits of a
NaN (`Respelled.asNumber?`), and have the same text, so they are ordered alike with any other value.
-/

namespace Lineup

/-! ### Alike numbers -/

namespace Binary64

theorem alike_self (x : Binary64) : x.alike x := by
  cases h : x.isNaN <;> simp [alike, equal, compare?, h]

theorem compare?_eq_eq_iff {x y : Binary64} :
    x.compare? y = some .eq ↔ x.isNaN = false ∧ y.isNaN = false ∧ x.key = y.key := by
  unfold compare?
  split
  · rename_i hnan
    simp only [reduceCtorEq, false_iff]
    rintro ⟨hx, hy, -⟩
    rw [hx, hy] at hnan
    cases hnan
  · rename_i hnan
    obtain ⟨hx, hy⟩ := Bool.or_eq_false_iff.1 (Bool.eq_false_iff.2 hnan)
    simp [hx, hy]

theorem alike_iff {x y : Binary64} :
    x.alike y ↔ x.isNaN ∧ y.isNaN ∨ x.compare? y = some .eq := by
  simp [alike, equal]

/-- Alike numbers stand alike to any other. -/
theorem compare?_of_alike {x y : Binary64} (h : x.alike y) (z : Binary64) :
    x.compare? z = y.compare? z := by
  rcases alike_iff.1 h with ⟨hx, hy⟩ | heq
  · rw [compare?_eq_none_iff.2 (.inl hx), compare?_eq_none_iff.2 (.inl hy)]
  · obtain ⟨hx, hy, hkey⟩ := compare?_eq_eq_iff.1 heq
    simp only [compare?, hx, hy, hkey]

theorem compare?_self (x : Binary64) : x.compare? x = if x.isNaN then none else some .eq := by
  rw [compare?, Bool.or_self, Int.compare_eq_eq.2 rfl]

theorem compare?_swap (x y : Binary64) : y.compare? x = (x.compare? y).map Ordering.swap := by
  unfold compare?
  rw [Bool.or_comm]
  split
  · rfl
  · rw [Option.map_some, Int.compare_swap]

theorem compare?_congr {x x' y y' : Binary64} (hx : x.alike x') (hy : y.alike y') :
    x.compare? y = x'.compare? y' := by
  rw [compare?_of_alike hx, compare?_swap, compare?_of_alike hy, ← compare?_swap]

end Binary64

namespace Value

/-! ### Numbers in texts -/

theorem asNumber?_of_spells {s : String} {x : Binary64} (h : Binary64.Spells s.toList x) :
    (string s).asNumber? = some x := by
  rw [asNumber?, Text.trim_eq_self h.isBlank_eq_false, h.ofChars?]

theorem spells_text_int (n : Int64) : Binary64.Spells (int n).text.toList (.ofInt n.toInt) :=
  Binary64.spells_toString n.toInt

theorem spells_text_float {x : Binary64} (hx : x.isFinite) :
    Binary64.Spells (float x).text.toList x := by
  rw [text]
  split
  · rename_i hwhole
    exact Binary64.spells_exactWholeText hwhole
  · rw [Binary64.text, String.toList_ofList]
    exact Binary64.spells_chars hx

/-- The text of a float reads back as that float, or as some NaN if it is a NaN. -/
theorem asNumber?_text_float (x : Binary64) :
    ∃ y, (string (float x).text).asNumber? = some y ∧ x.alike y := by
  cases hx : x.isFinite with
  | true => exact ⟨x, asNumber?_of_spells (spells_text_float hx), x.alike_self⟩
  | false =>
    have hwhole : x.isWhole = false := by rw [Binary64.isWhole, hx, Bool.false_and]
    rw [text, if_neg (Bool.eq_false_iff.1 hwhole)]
    cases hnan : x.isNaN with
    | true =>
      have htext : x.text .plain = "NaN" := by
        rw [Binary64.text, Binary64.chars, if_pos hnan, String.ofList_toList]
      rw [htext]
      refine ⟨.ofParts false Binary64.quietNaN, rfl, ?_⟩
      rw [Binary64.alike, hnan]
      rfl
    | false =>
      rw [Binary64.text_of_infinite hnan hx]
      refine ⟨x, ?_, x.alike_self⟩
      rw [← x.ofParts_magnitude, Binary64.magnitude_of_infinite hnan hx]
      cases x.negative <;> rfl

/-! ### NaN -/

/-- Whether a value is NaN or its name, with or without a sign and blanks. -/
def isNaN : Value → Bool
  | float x => x.isNaN
  | string s => Binary64.namesNaN (Text.trim s.toList)
  | null | bool _ | int _ => false

theorem any_isNaN_coerced? (v : Value) : v.coerced?.any Binary64.isNaN = v.isNaN := by
  cases v with
  | null | float => rfl
  | bool b => rw [coerced?, Option.any_some, Binary64.isNaN_ofInt, isNaN]
  | int n =>
    have hnumber : (int n).coerced? = some (.ofInt n.toInt) := rfl
    rw [hnumber, Option.any_some, Binary64.isNaN_ofInt, isNaN]
  | string s => exact Binary64.any_isNaN_ofChars? (Text.trim s.toList)

/-- A value is equal to itself, as a number or as a text, unless it is NaN. -/
theorem coercedOrder?_self (v : Value) :
    v.coercedOrder? v = if v.isNaN then none else some .eq := by
  rw [coercedOrder?, ← any_isNaN_coerced?]
  cases v.coerced? with
  | none => exact congrArg some Std.ReflOrd.compare_self
  | some x => exact x.compare?_self

/-! ### Values for which their text stands -/

/-- Says that `w` is `v`, or the text of `v` in place of a number `v`. -/
inductive Respelled : Value → Value → Prop where
  | same (v : Value) : Respelled v v
  | int (n : Int64) : Respelled (.int n) (.string (Value.int n).text)
  | float (x : Binary64) : Respelled (.float x) (.string (Value.float x).text)

namespace Respelled

variable {v v' w w' : Value}

theorem text_eq (h : Respelled v w) : v.text = w.text := by
  cases h <;> rfl

theorem isNull_eq (h : Respelled v w) : v.isNull = w.isNull := by
  cases h <;> rfl

theorem relatesToBool_eq (h : Respelled v w) (o : BoolOrdering) (r : Relation) (b : Bool) :
    v.relatesToBool o r b = w.relatesToBool o r b := by
  cases h <;> rfl

theorem asNumber? (h : Respelled v w) :
    Option.Rel (fun x y => x.alike y) v.asNumber? w.asNumber? := by
  cases h with
  | same v =>
    cases v.asNumber? with
    | none => exact .none
    | some x => exact .some x.alike_self
  | int n =>
    rw [asNumber?_of_spells (spells_text_int n)]
    exact .some (Binary64.alike_self _)
  | float x =>
    obtain ⟨y, hy, hxy⟩ := asNumber?_text_float x
    rw [hy]
    exact .some hxy

theorem coerced? (h : Respelled v w) :
    Option.Rel (fun x y => x.alike y) v.coerced? w.coerced? := by
  cases h with
  | same v =>
    cases v.coerced? with
    | none => exact .none
    | some x => exact .some x.alike_self
  | int n => exact (Respelled.int n).asNumber?
  | float x => exact (Respelled.float x).asNumber?

theorem coercedOrder?_eq (h : Respelled v v') (h' : Respelled w w') :
    v.coercedOrder? w = v'.coercedOrder? w' := by
  have hx := h.coerced?
  have hy := h'.coerced?
  rw [coercedOrder?, coercedOrder?, h.text_eq, h'.text_eq]
  generalize v.coerced? = x, v'.coerced? = x' at hx ⊢
  generalize w.coerced? = y, w'.coerced? = y' at hy ⊢
  cases hx with
  | none => rfl
  | some hx =>
    cases hy with
    | none => rfl
    | some hy => exact Binary64.compare?_congr hx hy

end Respelled

end Value

end Lineup
