import Lineup.Proofs.Text.Bytes
import Lineup.Text.Location

/-!
# Which place a location is

A location counts the line feeds before a place and the characters between the last of them and the
place (`Location.IsAt`). The location after a text that has been read does so
(`Location.isAt_after`), and it belongs to one place of the whole text only
(`Location.IsAt.unique`), as every character that is read moves it on. It can be found from the
byte offset of the place too (`Location.atByte?_offsetOf`).
-/

namespace Lineup.Text.Location

/-- Says that `p` is the location of the place in `s` where its tail `rest` starts: before it there
are `lines`, which are whole, and then the characters `line`. -/
def IsAt (p : Location) (s rest : List Char) : Prop :=
  ∃ lines line, s = lines ++ line ++ rest ∧ (lines = [] ∨ lines.getLast? = some '\n') ∧
    '\n' ∉ line ∧ p = ⟨lines.count '\n' + 1, line.length⟩

/-- Every text is whole lines and the start of a line. -/
theorem exists_lines (s : List Char) : ∃ lines line, s = lines ++ line ∧
    (lines = [] ∨ lines.getLast? = some '\n') ∧ '\n' ∉ line := by
  induction s with
  | nil => exact ⟨[], [], rfl, .inl rfl, nofun⟩
  | cons c s ih =>
    obtain ⟨lines, line, rfl, hlines, hline⟩ := ih
    cases lines with
    | cons d lines =>
      refine ⟨c :: d :: lines, line, rfl, .inr ?_, hline⟩
      rw [List.getLast?_cons_cons]
      exact hlines.resolve_left nofun
    | nil =>
      by_cases hc : c = '\n'
      · exact ⟨[c], line, rfl, .inr (congrArg some hc), hline⟩
      · exact ⟨[], c :: line, rfl, .inl rfl, List.not_mem_cons_of_ne_of_not_mem (Ne.symm hc) hline⟩

theorem foldl_advance_of_not_mem (p : Location) {line : List Char} (h : '\n' ∉ line) :
    line.foldl advance p = ⟨p.line, p.column + line.length⟩ := by
  induction line generalizing p with
  | nil => rfl
  | cons c line ih =>
    have hc : c ≠ '\n' := (List.ne_of_not_mem_cons h).symm
    rw [List.foldl_cons, ih _ (List.not_mem_of_not_mem_cons h), advance, if_neg hc,
      List.length_cons, Nat.add_assoc, Nat.add_comm 1]

/-- The location at the start of a line. -/
theorem after_lines {lines : List Char} (h : lines = [] ∨ lines.getLast? = some '\n') :
    after lines = ⟨lines.count '\n' + 1, 0⟩ := by
  rcases h with rfl | h
  · rfl
  · obtain ⟨t, rfl⟩ := List.getLast?_eq_some_iff.1 h
    rw [after_concat, advance, if_pos rfl, line_after, List.count_append, List.count_singleton_self,
      Nat.add_comm 1]

theorem after_append (s t : List Char) : after (s ++ t) = t.foldl advance (after s) :=
  List.foldl_append

theorem after_lines_append {lines line : List Char}
    (h : lines = [] ∨ lines.getLast? = some '\n') (hline : '\n' ∉ line) :
    after (lines ++ line) = ⟨lines.count '\n' + 1, line.length⟩ := by
  rw [after_append, after_lines h, foldl_advance_of_not_mem _ hline, Nat.zero_add]

/-- What is read moves a location on. -/
theorem after_append_ne {s t : List Char} (ht : t ≠ []) : after (s ++ t) ≠ after s := by
  intro h
  rw [after_append] at h
  have hline : (after s).line + t.count '\n' = (after s).line :=
    (foldl_advance_line (after s) t).symm.trans (congrArg Location.line h)
  have hmem : '\n' ∉ t := List.count_eq_zero.1 (Nat.add_eq_left.1 hline)
  rw [foldl_advance_of_not_mem _ hmem] at h
  have hcolumn : (after s).column + t.length = (after s).column := congrArg Location.column h
  exact ht (List.length_eq_zero_iff.1 (Nat.add_eq_left.1 hcolumn))

theorem isAt_after (before rest : List Char) : (after before).IsAt (before ++ rest) rest := by
  obtain ⟨lines, line, rfl, hlines, hline⟩ := exists_lines before
  exact ⟨lines, line, rfl, hlines, hline, after_lines_append hlines hline⟩

theorem isAt_ofRest {s rest : List Char} (h : rest <:+ s) : (ofRest s rest).IsAt s rest := by
  obtain ⟨before, rfl⟩ := h
  rw [ofRest_append]
  exact isAt_after before rest

theorem IsAt.exists_after {p : Location} {s rest : List Char} (h : p.IsAt s rest) :
    ∃ before, s = before ++ rest ∧ p = after before := by
  obtain ⟨lines, line, rfl, hlines, hline, rfl⟩ := h
  exact ⟨lines ++ line, rfl, (after_lines_append hlines hline).symm⟩

/-- A location belongs to one place. -/
theorem IsAt.unique {p : Location} {s r r' : List Char} (h : p.IsAt s r) (h' : p.IsAt s r') :
    r = r' := by
  obtain ⟨v, rfl, rfl⟩ := h.exists_after
  obtain ⟨w, hs, hafter⟩ := h'.exists_after
  rcases List.append_eq_append_iff.1 hs with ⟨t, rfl, rfl⟩ | ⟨t, rfl, rfl⟩
  · cases t with
    | nil => rfl
    | cons c t => exact absurd hafter.symm (after_append_ne (List.cons_ne_nil c t))
  · cases t with
    | nil => rfl
    | cons c t => exact absurd hafter (after_append_ne (List.cons_ne_nil c t))

/-! ### Locations of byte offsets -/

/-- The location of the place at a byte offset. -/
def atByte? (s : List Char) (offset : Nat) : Option Location := do
  let before ← sliceTo? s offset
  let line ← match findLastByte? (· = '\n') before with
    | some i => sliceFrom? before (i + 1)
    | none => some before
  return ⟨before.count '\n' + 1, line.length⟩

theorem atByte?_append (before rest : List Char) :
    atByte? (before ++ rest) (byteLength before) = some (after before) := by
  obtain ⟨lines, line, rfl, hlines, hline⟩ := exists_lines before
  have hnone : ∀ c ∈ line, decide (c = '\n') = false := fun c hc =>
    decide_eq_false fun he => hline (he ▸ hc)
  have hcount : (lines ++ line).count '\n' = lines.count '\n' := by
    rw [List.count_append, List.count_eq_zero.2 hline, Nat.add_zero]
  rw [after_lines_append hlines hline, ← hcount]
  rcases hlines with rfl | hlast
  · simp [atByte?, findLastByte?_eq_none hnone]
  · obtain ⟨v, rfl⟩ := List.getLast?_eq_some_iff.1 hlast
    have hfind : findLastByte? (fun c => decide (c = '\n')) (v ++ ['\n'] ++ line) =
        some (byteLength v) := by
      rw [List.append_assoc]
      exact findLastByte?_append hnone (decide_eq_true rfl)
    have hend : byteLength (v ++ ['\n']) = byteLength v + 1 := byteLength_append v ['\n']
    have hslice : sliceFrom? (v ++ ['\n'] ++ line) (byteLength v + 1) = some line := by
      rw [← hend]
      exact sliceFrom?_append _ _
    simp only [atByte?, sliceTo?_append, Option.bind_eq_bind, Option.bind_some, hfind, hslice,
      Option.pure_def]

theorem atByte?_offsetOf {s rest : List Char} (h : rest <:+ s) :
    atByte? s (offsetOf s rest) = some (ofRest s rest) := by
  obtain ⟨before, rfl⟩ := h
  rw [offsetOf_append, atByte?_append, ofRest_append]

end Lineup.Text.Location
