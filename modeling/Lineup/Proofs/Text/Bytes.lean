/-!
# Byte offsets

A place in a text can be given by the number of bytes before it in UTF-8. Not every number is the
offset of a place: one that is too large or falls within a character is none, and a text cannot be
split there. The offsets of places are the byte lengths of what stands before them
(`splitAtByte?_eq_some_iff`).
-/

namespace Lineup.Text

/-- The number of bytes of a text in UTF-8. -/
def byteLength : List Char → Nat
  | [] => 0
  | c :: s => c.utf8Size + byteLength s

@[simp] theorem byteLength_nil : byteLength [] = 0 := rfl

@[simp] theorem byteLength_cons (c : Char) (s : List Char) :
    byteLength (c :: s) = c.utf8Size + byteLength s := rfl

@[simp] theorem byteLength_append (s t : List Char) :
    byteLength (s ++ t) = byteLength s + byteLength t := by
  induction s with
  | nil => rw [List.nil_append, byteLength_nil, Nat.zero_add]
  | cons c s ih => rw [List.cons_append, byteLength_cons, byteLength_cons, ih, Nat.add_assoc]

/-- The text before and from a byte offset on, if it is the offset of a place. -/
def splitAtByte? : List Char → Nat → Option (List Char × List Char)
  | s, 0 => some ([], s)
  | [], _ + 1 => none
  | c :: s, n + 1 =>
    if c.utf8Size ≤ n + 1 then
      (splitAtByte? s (n + 1 - c.utf8Size)).map fun (before, rest) => (c :: before, rest)
    else none

theorem splitAtByte?_append (s t : List Char) :
    splitAtByte? (s ++ t) (byteLength s) = some (s, t) := by
  induction s with
  | nil => cases t <;> rfl
  | cons c s ih =>
    obtain ⟨n, hn⟩ := Nat.exists_eq_succ_of_ne_zero (Nat.ne_of_gt c.utf8Size_pos)
    have hsucc : byteLength (c :: s) = n + byteLength s + 1 := by
      rw [byteLength_cons, hn]
      omega
    have hsub : n + byteLength s + 1 - c.utf8Size = byteLength s := by omega
    rw [hsucc, List.cons_append, splitAtByte?, if_pos (by omega), hsub, ih]
    rfl

theorem splitAtByte?_eq_some_iff {s before rest : List Char} {n : Nat} :
    splitAtByte? s n = some (before, rest) ↔ s = before ++ rest ∧ n = byteLength before := by
  constructor
  · intro h
    induction s generalizing n before with
    | nil =>
      cases n with
      | zero =>
        cases h
        exact ⟨rfl, rfl⟩
      | succ n => cases h
    | cons c s ih =>
      cases n with
      | zero =>
        cases h
        exact ⟨rfl, rfl⟩
      | succ n =>
        rw [splitAtByte?] at h
        split at h
        · obtain ⟨⟨before', rest'⟩, hsplit, he⟩ := Option.map_eq_some_iff.1 h
          obtain ⟨rfl, rfl⟩ := Prod.mk.inj he
          obtain ⟨rfl, hn⟩ := ih hsplit
          refine ⟨rfl, ?_⟩
          rw [byteLength_cons]
          omega
        · cases h
  · rintro ⟨rfl, rfl⟩
    exact splitAtByte?_append before rest

/-- The text before a byte offset. -/
def sliceTo? (s : List Char) (n : Nat) : Option (List Char) := (splitAtByte? s n).map Prod.fst

/-- The text from a byte offset on. -/
def sliceFrom? (s : List Char) (n : Nat) : Option (List Char) := (splitAtByte? s n).map Prod.snd

/-- The offset of the place where a tail of a text starts. -/
def offsetOf (s rest : List Char) : Nat := byteLength s - byteLength rest

theorem offsetOf_append (before rest : List Char) :
    offsetOf (before ++ rest) rest = byteLength before := by
  rw [offsetOf, byteLength_append, Nat.add_sub_cancel]

@[simp] theorem sliceTo?_append (before rest : List Char) :
    sliceTo? (before ++ rest) (byteLength before) = some before := by
  rw [sliceTo?, splitAtByte?_append]
  rfl

@[simp] theorem sliceFrom?_append (before rest : List Char) :
    sliceFrom? (before ++ rest) (byteLength before) = some rest := by
  rw [sliceFrom?, splitAtByte?_append]
  rfl

/-- A tail is what a text is from the offset of the tail on. -/
theorem sliceFrom?_offsetOf {s rest : List Char} (h : rest <:+ s) :
    sliceFrom? s (offsetOf s rest) = some rest := by
  obtain ⟨before, rfl⟩ := h
  rw [offsetOf_append, sliceFrom?_append]

/-! ### Searching -/

/-- The offset of the first character of a kind. -/
def findByte? (p : Char → Bool) : List Char → Option Nat
  | [] => none
  | c :: s => if p c then some 0 else (findByte? p s).map (c.utf8Size + ·)

/-- The offset of the last character of a kind. -/
def findLastByte? (p : Char → Bool) : List Char → Option Nat
  | [] => none
  | c :: s => ((findLastByte? p s).map (c.utf8Size + ·)).or (if p c then some 0 else none)

/-- The first character of a kind stands behind the longest run of others. -/
theorem findByte?_eq (p : Char → Bool) (s : List Char) : findByte? p s =
    if s.dropWhile (!p ·) = [] then none else some (byteLength (s.takeWhile (!p ·))) := by
  induction s with
  | nil => rfl
  | cons c s ih =>
    cases hc : p c with
    | true => simp [findByte?, hc]
    | false =>
      simp only [findByte?, hc, ih, List.dropWhile_cons, List.takeWhile_cons, Bool.not_false,
        Bool.false_eq_true, if_true, if_false, byteLength_cons]
      split <;> rfl

theorem findByte?_getD (p : Char → Bool) (s : List Char) :
    (findByte? p s).getD (byteLength s) = byteLength (s.takeWhile (!p ·)) := by
  rw [findByte?_eq]
  split
  · rename_i hs
    have htake := List.takeWhile_append_dropWhile (p := (!p ·)) (l := s)
    rw [hs, List.append_nil] at htake
    rw [htake]
    rfl
  · rfl

variable {p : Char → Bool} {v r : List Char} {c : Char}

theorem findLastByte?_eq_none (h : ∀ c ∈ v, p c = false) : findLastByte? p v = none := by
  induction v with
  | nil => rfl
  | cons d v ih =>
    obtain ⟨hd, hv⟩ := List.forall_mem_cons.1 h
    rw [findLastByte?, hd, ih hv]
    rfl

theorem findLastByte?_append (hr : ∀ c ∈ r, p c = false) (hc : p c) :
    findLastByte? p (v ++ c :: r) = some (byteLength v) := by
  induction v with
  | nil =>
    rw [List.nil_append, findLastByte?, findLastByte?_eq_none hr, if_pos hc]
    rfl
  | cons d v ih =>
    rw [List.cons_append, findLastByte?, ih, byteLength_cons]
    rfl

end Lineup.Text
