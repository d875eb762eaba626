import Lineup.Text.Blank
import Mathlib.Data.List.TakeWhile

/-!
# Runs of characters

A reader takes the longest run of characters of a kind. Seen from the outside the run consists of
such characters and the rest does not go on with one (`Stops`), and these two facts determine the
run. A run of blanks is different: what follows it may go on with blanks (`Blanks`), as no phrase
depends on where they end.
-/

namespace Lineup.Text

/-- Says that `s` does not go on with a character of the kind `p`. -/
def Stops (p : Char → Bool) (s : List Char) : Prop := ∀ c ∈ s.head?, p c = false

@[simp] theorem stops_nil (p : Char → Bool) : Stops p [] := nofun

@[simp] theorem stops_cons {p : Char → Bool} {c : Char} {s : List Char} :
    Stops p (c :: s) ↔ p c = false := by
  simp [Stops]

theorem stops_dropWhile (p : Char → Bool) (s : List Char) : Stops p (s.dropWhile p) := by
  induction s with
  | nil => exact stops_nil p
  | cons c s ih =>
    rw [List.dropWhile_cons]
    split
    · exact ih
    · rename_i hc
      exact stops_cons.2 (Bool.eq_false_iff.2 hc)

theorem Stops.imp {p q : Char → Bool} {s : List Char} (h : Stops p s)
    (hq : ∀ c, p c = false → q c = false) : Stops q s :=
  fun c hc => hq c (h c hc)

theorem Stops.takeWhile_eq_nil {p : Char → Bool} {s : List Char} (h : Stops p s) :
    s.takeWhile p = [] := by
  cases s with
  | nil => rfl
  | cons c s => simp [stops_cons.1 h]

theorem Stops.dropWhile_eq {p : Char → Bool} {s : List Char} (h : Stops p s) :
    s.dropWhile p = s := by
  cases s with
  | nil => rfl
  | cons c s => simp [stops_cons.1 h]

/-- The longest run consists of characters of the kind, and the rest does not go on with one. -/
theorem takeWhile_spec (p : Char → Bool) (s : List Char) :
    s = s.takeWhile p ++ s.dropWhile p ∧ (∀ c ∈ s.takeWhile p, p c) ∧ Stops p (s.dropWhile p) :=
  ⟨List.takeWhile_append_dropWhile.symm, fun _ => List.mem_takeWhile_imp, stops_dropWhile p s⟩

theorem takeWhile_append_of_stops {p : Char → Bool} {w r : List Char} (hw : ∀ c ∈ w, p c)
    (hr : Stops p r) : (w ++ r).takeWhile p = w := by
  rw [List.takeWhile_append_of_pos hw, hr.takeWhile_eq_nil, List.append_nil]

theorem dropWhile_append_of_stops {p : Char → Bool} {w r : List Char} (hw : ∀ c ∈ w, p c)
    (hr : Stops p r) : (w ++ r).dropWhile p = r := by
  rw [List.dropWhile_append_of_pos hw, hr.dropWhile_eq]

/-- From `s` on there are blanks, possibly none, and then `r`. -/
def Blanks (s r : List Char) : Prop := ∃ w, (∀ c ∈ w, isBlank c) ∧ s = w ++ r

namespace Blanks

theorem refl (s : List Char) : Blanks s s := ⟨[], nofun, rfl⟩

theorem cons {c : Char} {s r : List Char} (hc : isBlank c) : Blanks s r → Blanks (c :: s) r
  | ⟨w, hw, hs⟩ => ⟨c :: w, List.forall_mem_cons.2 ⟨hc, hw⟩, by rw [hs, List.cons_append]⟩

theorem skip (s : List Char) : Blanks s (skipBlanks s) :=
  ⟨s.takeWhile isBlank, fun _ => List.mem_takeWhile_imp, List.takeWhile_append_dropWhile.symm⟩

/-- Blanks make no difference to what is found behind them. -/
theorem skipBlanks_eq {s r : List Char} : Blanks s r → skipBlanks s = skipBlanks r
  | ⟨_, hw, hs⟩ => by rw [hs, skipBlanks, List.dropWhile_append_of_pos hw, skipBlanks]

end Blanks

/-- To find `r` behind blanks is to have nothing but blanks before it, as long as none of them is
part of `r`. -/
theorem blanks_iff {s r : List Char} (hr : Stops isBlank r) : Blanks s r ↔ skipBlanks s = r := by
  constructor
  · intro h
    rw [h.skipBlanks_eq]
    exact hr.dropWhile_eq
  · intro h
    exact h ▸ Blanks.skip s

/-- What does not follow the blanks does not follow before them either, unless it is a blank. -/
theorem stops_of_skipBlanks {p : Char → Bool} {s : List Char} (h : Stops p (skipBlanks s))
    (hp : ∀ c, isBlank c → p c = false) : Stops p s := by
  cases s with
  | nil => exact stops_nil p
  | cons c s =>
    cases hc : isBlank c with
    | true => exact stops_cons.2 (hp c hc)
    | false => simpa [skipBlanks, hc] using h

theorem skipBlanks_eq_self {s : List Char} (h : Stops isBlank s) : skipBlanks s = s :=
  h.dropWhile_eq

/-- Nothing is trimmed from a text without blanks. -/
theorem trim_eq_self {s : List Char} (h : ∀ c ∈ s, isBlank c = false) : trim s = s := by
  have hstops : ∀ t : List Char, (∀ c ∈ t, isBlank c = false) → Stops isBlank t := fun t ht c hc =>
    ht c (List.mem_of_mem_head? hc)
  have hreverse : ∀ c ∈ s.reverse, isBlank c = false := fun c hc => h c (List.mem_reverse.1 hc)
  rw [trim, skipBlanks_eq_self (hstops s h), skipBlanks_eq_self (hstops _ hreverse),
    List.reverse_reverse]

/-- Characters that a predicate tells apart are different. -/
theorem ne_of_tells {p : Char → Bool} {c d : Char} (hc : p c) (hd : p d = false) : c ≠ d := by
  intro h
  rw [h, hd] at hc
  cases hc

/-- No visible ASCII character is a blank. -/
theorem isBlank_of_graphic {c : Char} (h : 0x20 < c.toNat) (h' : c.toNat < 0x7f) :
    isBlank c = false := by
  simp only [isBlank, blankRanges, List.any_cons, List.any_nil, Bool.or_eq_false_iff,
    Bool.and_eq_false_iff, decide_eq_false_iff_not, and_true]
  omega

end Lineup.Text
