import Lineup.Json.Compact.Reading
import Lineup.Proofs.Json.Compact.Numbers
import Lineup.Proofs.Json.Compact.Strings
import Lineup.Proofs.Json.Kept

/-!
# The laws of the compact library

The compact library keeps the laws (`compact_lawful`), as the text of every tree is read as what is
kept of the tree (`parse?_text`).
-/

namespace Lineup.Json.Compact

open Text (Remains Stops stops_nil stops_cons ne_of_tells)

/-! ### What is read -/

/-- Says that `s` starts with the value `j` and goes on with `r`. -/
def Reads (s : List Char) (j : Json) (r : List Char) : Prop :=
  ∃ h, value? s = some (j, ⟨r, h⟩)

def ReadsElements (s : List Char) (l : List Json) (r : List Char) : Prop :=
  ∃ h, elements? s = some (l, ⟨r, h⟩)

def ReadsMembers (s : List Char) (l : List (Option String × Json)) (r : List Char) : Prop :=
  ∃ h, members? s = some (l, ⟨r, h⟩)

variable {s r t : List Char} {j : Json}

theorem remains_cons (c : Char) (s : List Char) : Remains s (c :: s) :=
  .of_cons c (List.suffix_refl s)

theorem readsElements_last (hj : Reads s j (']' :: r)) : ReadsElements s [j] r := by
  obtain ⟨h, hj⟩ := hj
  rw [ReadsElements, elements?, hj]
  exact ⟨(remains_cons _ r).trans h, rfl⟩

theorem readsElements_cons {l : List Json} (hj : Reads s j (',' :: t)) (hl : ReadsElements t l r) :
    ReadsElements s (j :: l) r := by
  obtain ⟨h, hj⟩ := hj
  obtain ⟨h', hl⟩ := hl
  rw [ReadsElements, elements?, hj]
  dsimp only
  split
  · rename_i hskip
    cases hskip
  · rename_i hskip
    cases hskip
    rw [hl]
    exact ⟨h'.trans ((remains_cons _ t).trans h), rfl⟩
  · rename_i hskip
    exact absurd rfl (hskip t)

/-- The name of a member and its colon are read up to the value. -/
theorem readsMembers_of_reads {k : Option String} {l : List (Option String × Json)}
    (h : Reads t j ('\x7d' :: r) ∧ l = [] ∨
      ∃ u, Reads t j (',' :: u) ∧ ReadsMembers u l r) :
    ReadsMembers (stringChars k ++ ':' :: t) ((k, j) :: l) r := by
  have hk := stringTail?_stringContent k (':' :: t)
  have hchars : stringChars k ++ ':' :: t = '"' :: (stringContent k ++ '"' :: ':' :: t) := by
    simp [stringChars]
  have ht : Remains t (stringChars k ++ ':' :: t) := by
    rw [hchars]
    exact ((remains_cons _ t).trans (remains_stringTail? hk)).trans (remains_cons _ _)
  rw [hchars] at ht ⊢
  rw [ReadsMembers, members?]
  split
  case h_2 hskip => exact absurd rfl (hskip _)
  rename_i hskip
  cases hskip
  split
  · rename_i hkey
    cases hk.symm.trans hkey
  rename_i hkey
  cases hk.symm.trans hkey
  split
  case h_2 hskip => exact absurd rfl (hskip t)
  rename_i hskip
  cases hskip
  rcases h with ⟨⟨h, hj⟩, rfl⟩ | ⟨u, ⟨h, hj⟩, h', hl⟩
  · rw [hj]
    exact ⟨((remains_cons _ r).trans h).trans ht, rfl⟩
  · rw [hj]
    dsimp only
    split
    · rename_i hskip
      cases hskip
    · rename_i hskip
      cases hskip
      rw [hl]
      exact ⟨(h'.trans ((remains_cons _ u).trans h)).trans ht, rfl⟩
    · rename_i hskip
      exact absurd rfl (hskip u)

/-! ### Values -/

theorem not_reads_bracket (h : skipSpace s = ']' :: t) : ¬ Reads s j r := by
  rintro ⟨hr, hj⟩
  rw [value?] at hj
  split at hj
  case h_4 =>
    split at hj
    · rename_i hscalar
      rw [h] at hscalar
      cases hscalar
    · cases hj
  all_goals
    rename_i hskip
    cases h.symm.trans hskip

theorem not_readsElements_bracket {l : List Json} (h : skipSpace s = ']' :: t) :
    ¬ ReadsElements s l r := by
  rintro ⟨hr, hl⟩
  rw [elements?] at hl
  split at hl
  · cases hl
  · rename_i k q hk
    exact not_reads_bracket h ⟨q.2, hk⟩

theorem reads_array_nil (r : List Char) : Reads ('[' :: ']' :: r) (array []) r := by
  rw [Reads, value?]
  exact ⟨(remains_cons _ r).trans (remains_cons _ _), rfl⟩

theorem reads_array {l : List Json} (hl : ReadsElements t l r) :
    Reads ('[' :: t) (array l) r := by
  rw [Reads, value?]
  split
  case h_4 hskip _ _ => exact absurd rfl (hskip t)
  · rename_i hskip
    cases hskip
    split
    · rename_i hskip
      exact absurd hl (not_readsElements_bracket hskip)
    · obtain ⟨h, hl⟩ := hl
      rw [hl]
      exact ⟨h.trans (remains_cons _ t), rfl⟩
  all_goals
    rename_i hskip
    cases hskip

theorem reads_object_nil (r : List Char) : Reads ('\x7b' :: '\x7d' :: r) (object []) r := by
  rw [Reads, value?]
  exact ⟨(remains_cons _ r).trans (remains_cons _ _), rfl⟩

theorem not_readsMembers_brace {l : List (Option String × Json)}
    (h : skipSpace s = '\x7d' :: t) : ¬ ReadsMembers s l r := by
  rintro ⟨hr, hl⟩
  rw [members?] at hl
  split at hl
  · rename_i hskip
    cases h.symm.trans hskip
  · cases hl

theorem reads_object {l : List (Option String × Json)} (hl : ReadsMembers t l r) :
    Reads ('\x7b' :: t) (object l) r := by
  rw [Reads, value?]
  split
  case h_4 hskip _ => exact absurd rfl (hskip t)
  case h_2 =>
    rename_i hskip
    cases hskip
    split
    · rename_i hskip
      exact absurd hl (not_readsMembers_brace hskip)
    · obtain ⟨h, hl⟩ := hl
      rw [hl]
      exact ⟨h.trans (remains_cons _ t), rfl⟩
  all_goals
    rename_i hskip
    cases hskip

theorem reads_string (s : Option String) (r : List Char) :
    Reads (stringChars s ++ r) (string s) r := by
  have hs := stringTail?_stringContent s r
  have hchars : stringChars s ++ r = '"' :: (stringContent s ++ '"' :: r) := by
    simp [stringChars]
  rw [hchars, Reads, value?]
  split
  case h_4 hskip => exact absurd rfl (hskip _)
  case h_3 =>
    rename_i hskip
    cases hskip
    split
    · rename_i hkey
      cases hs.symm.trans hkey
      exact ⟨(remains_stringTail? hs).trans (remains_cons _ _), rfl⟩
    · rename_i hkey
      cases hs.symm.trans hkey
  all_goals
    rename_i hskip
    cases hskip

/-- Whether a character, at the start of a value, decides that it is no scalar. -/
def isOpening (c : Char) : Bool := isSpace c || c = '[' || c = '\x7b' || c = '"'

theorem reads_scalar (hs : Stops isOpening s) (hj : scalar? s = some (j, r)) : Reads s j r := by
  have hskip : skipSpace s = s := by
    refine (hs.imp fun c hc => ?_).dropWhile_eq
    simp only [isOpening, Bool.or_eq_false_iff] at hc
    exact hc.1.1.1
  rw [Reads, value?]
  split
  case h_4 =>
    split
    · rename_i hscalar
      rw [hskip] at hscalar
      cases hj.symm.trans hscalar
      exact ⟨remains_scalar? hj, rfl⟩
    · rename_i hscalar
      rw [hskip] at hscalar
      cases hj.symm.trans hscalar
  all_goals
    rename_i hopen
    rw [← hskip, hopen] at hs
    cases stops_cons.1 hs

theorem exactly?_append (w r : List Char) : exactly? w (w ++ r) = some r := by
  rw [exactly?, if_pos (List.prefix_append w r), List.drop_left]

theorem exactly?_eq_none {c : Char} {w : List Char} (hw : w.head? = some c)
    (h : Stops (fun d => d = c) s) : exactly? w s = none := by
  refine if_neg fun ⟨t, ht⟩ => ?_
  obtain ⟨l, rfl⟩ := List.head?_eq_some_iff.1 hw
  rw [← ht] at h
  simp at h

theorem reads_null (r : List Char) : Reads ("null".toList ++ r) null r := by
  refine reads_scalar (stops_cons.2 rfl) ?_
  rw [scalar?, exactly?_append]

theorem reads_bool (b : Bool) (r : List Char) : Reads (chars (bool b) ++ r) (bool b) r := by
  cases b with
  | true =>
    have hnull : exactly? "null".toList ("true".toList ++ r) = none :=
      exactly?_eq_none rfl (stops_cons.2 rfl)
    refine reads_scalar (stops_cons.2 rfl) ?_
    rw [chars, if_pos rfl, scalar?, hnull, exactly?_append]
  | false =>
    have hnull : exactly? "null".toList ("false".toList ++ r) = none :=
      exactly?_eq_none rfl (stops_cons.2 rfl)
    have htrue : exactly? "true".toList ("false".toList ++ r) = none :=
      exactly?_eq_none rfl (stops_cons.2 rfl)
    refine reads_scalar (stops_cons.2 rfl) ?_
    rw [chars, if_neg Bool.false_ne_true, scalar?, hnull, htrue, exactly?_append]

theorem reads_number {n : Numeral} (hn : numberOfChars? n.chars = some j)
    (hr : Stops isNumberPart r) : Reads (n.chars ++ r) j r := by
  have hword {w : List Char} {c : Char} (hw : w.head? = some c) (hminus : '-' ≠ c)
      (hc : c.isDigit = false) : exactly? w (n.chars ++ r) = none :=
    exactly?_eq_none hw <| n.stops_chars (decide_eq_false hminus)
      (fun d hd => decide_eq_false (ne_of_tells hd hc)) r
  have hopen : ∀ c, c.isDigit → isOpening c = false := by
    intro c hc
    simp only [isOpening, isSpace, Bool.or_eq_false_iff, decide_eq_false_iff_not]
    refine ⟨⟨⟨⟨⟨⟨?_, ?_⟩, ?_⟩, ?_⟩, ?_⟩, ?_⟩, ?_⟩ <;> exact ne_of_tells hc rfl
  refine reads_scalar (n.stops_chars rfl hopen r) ?_
  rw [scalar?, hword rfl (by decide) rfl, hword rfl (by decide) rfl, hword rfl (by decide) rfl,
    number?_chars n hr]
  dsimp only
  rw [hn, Option.map_some]

theorem reads_int (n : Int64) (hr : Stops isNumberPart r) :
    Reads ((toString n.toInt).toList ++ r) (int n) r := by
  rw [← Numeral.chars_ofInt]
  exact reads_number (numberOfChars?_ofInt n) hr

theorem reads_float (x : Binary64) (hr : Stops isNumberPart r) :
    Reads (floatChars x ++ r) (kept (float x)) r := by
  rw [kept]
  split
  · rename_i hx
    obtain ⟨n, hchars, hn⟩ := exists_numeral hx
    rw [← hchars]
    exact reads_number hn hr
  · rename_i hx
    rw [floatChars, if_neg hx]
    exact reads_null r

/-! ### Trees -/

theorem readsElements_elementChars {l : List Json} (hne : l ≠ [])
    (h : ∀ j ∈ l, ∀ r, Stops isNumberPart r → Reads (chars j ++ r) j.kept r) (r : List Char) :
    ReadsElements (elementChars l ++ ']' :: r) (l.map kept) r := by
  induction l with
  | nil => exact absurd rfl hne
  | cons j l ih =>
    cases l with
    | nil =>
      rw [elementChars]
      exact readsElements_last (h j List.mem_cons_self _ (stops_cons.2 rfl))
    | cons k l =>
      rw [elementChars, List.append_assoc, List.cons_append]
      · exact readsElements_cons (h j List.mem_cons_self _ (stops_cons.2 rfl))
          (ih nofun fun m hm => h m (List.mem_cons_of_mem _ hm))
      · exact nofun

theorem readsMembers_memberChars {l : List (Option String × Json)} (hne : l ≠ [])
    (h : ∀ m ∈ l, ∀ r, Stops isNumberPart r → Reads (chars m.2 ++ r) m.2.kept r)
    (r : List Char) : ReadsMembers (memberChars l ++ '\x7d' :: r)
      (l.map fun (k, j) => (k, j.kept)) r := by
  induction l with
  | nil => exact absurd rfl hne
  | cons m l ih =>
    obtain ⟨k, j⟩ := m
    have hj := h (k, j) List.mem_cons_self
    cases l with
    | nil =>
      rw [memberChars, List.append_assoc, List.cons_append]
      exact readsMembers_of_reads (.inl ⟨hj _ (stops_cons.2 rfl), rfl⟩)
    | cons m l =>
      rw [memberChars, List.append_assoc, List.append_assoc, List.cons_append, List.cons_append]
      · exact readsMembers_of_reads (.inr ⟨_, hj _ (stops_cons.2 rfl),
          ih nofun fun m hm => h m (List.mem_cons_of_mem _ hm)⟩)
      · exact nofun

/-- The text of a tree is read as what is kept of the tree, whatever follows, unless it goes on
with a number. -/
theorem reads_chars (j : Json) :
    ∀ r, Stops isNumberPart r → Reads (chars j ++ r) j.kept r := by
  induction j using Json.induction with
  | null => exact fun r _ => reads_null r
  | bool b => exact fun r _ => reads_bool b r
  | int n => exact fun r hr => reads_int n hr
  | float x => exact fun r hr => reads_float x hr
  | string s => exact fun r _ => reads_string s r
  | array l ih =>
    intro r _
    by_cases hne : l = []
    · subst hne
      exact reads_array_nil r
    · rw [chars, List.append_assoc, kept_array]
      exact reads_array (readsElements_elementChars hne ih r)
  | object l ih =>
    intro r _
    by_cases hne : l = []
    · subst hne
      exact reads_object_nil r
    · rw [chars, List.append_assoc, kept_object]
      exact reads_object (readsMembers_memberChars hne ih r)

/-- A text is read as what is kept of the tree whose text it is. -/
theorem parse?_text (j : Json) : parse? (text j) = some j.kept := by
  have hreads : Reads (text j).toList j.kept [] := by
    have h := reads_chars j [] (stops_nil _)
    rwa [List.append_nil, ← String.toList_ofList (l := chars j)] at h
  obtain ⟨hr, hj⟩ := hreads
  rw [parse?, hj]
  rfl

end Compact

theorem compact_lawful : compact.Lawful := by
  have hreads (j : Json) : compact.Reads j j.kept := Compact.parse?_text j
  have hkept {j k : Json} (h : compact.Reads j k) : k = j.kept :=
    Option.some.inj (h.symm.trans (hreads j))
  refine ⟨hreads _, fun b => hreads _, fun n => hreads _, fun x hx => ?_, fun x hx => ?_,
    fun s => hreads _, fun l f _ hl => ?_, fun l f _ hl => ?_, by decide⟩
  · have h := hreads (float x)
    rwa [kept, if_pos hx] at h
  · change String.ofList (Compact.floatChars x) = _
    rw [Compact.floatChars, if_neg (Bool.eq_false_iff.1 hx)]
    rfl
  · rw [List.map_congr_left fun j hj => hkept (hl j hj), ← kept_array]
    exact hreads _
  · rw [List.map_congr_left fun m hm => congrArg (m.1, ·) (hkept (hl m hm)), ← kept_ofFields]
    exact hreads _

end Lineup.Json
