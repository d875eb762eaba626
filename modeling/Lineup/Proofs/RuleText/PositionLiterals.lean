import Lineup.Proofs.RuleText.Acceptance
import Lineup.Proofs.Rule.Parts

/-!
# The positions that a text names

Outside of strings the sign `@` is followed by an integer, which stands for a position. Looking over
a text for these signs gives the positions of the rule that it is, each in its place
(`positions_of_derives`): what a phrase adds to the integers found behind it are its own positions
(`Pins`). For that nothing may follow the phrase that would make its last integer longer.
-/

namespace Lineup.RuleText

open Text (skipBlanks isBlank Blanks Stops stops_cons ne_of_tells blanks_iff
  takeWhile_append_of_stops)
open Decimal (Digits pointed pointed_of_ne_nil)
open Grammar

/-- The integer that a text starts with. -/
def leadingInteger (s : List Char) : Int :=
  withSign (splitMinus s).1 (Nat.ofDigitChars 10 ((splitMinus s).2.takeWhile Char.isDigit) 0)

def positionLiteralsFrom (inString : Bool) : List Char → List Int
  | [] => []
  | c :: s =>
    if inString then positionLiteralsFrom (c ≠ '"') s
    else if c = '@' then leadingInteger (skipBlanks s) :: positionLiteralsFrom false s
    else positionLiteralsFrom (c = '"') s

/-- The integers of a text that follow an `@` outside of strings, from left to right. -/
def positionLiterals (s : List Char) : List Int := positionLiteralsFrom false s

/-- Says that from `s` to `r` a text names the positions `ps`, all of them by their indices. -/
def Pins (ps : List Position) (s r : List Char) : Prop :=
  ∃ indices : List Int64, ps = indices.map .absolute ∧
    positionLiterals s = indices.map Int64.toInt ++ positionLiterals r

namespace Pins

variable {ps qs : List Position} {s t r : List Char}

theorem nil (h : positionLiterals s = positionLiterals r) : Pins [] s r := ⟨[], rfl, h⟩

theorem append (h : Pins ps s t) (h' : Pins qs t r) : Pins (ps ++ qs) s r := by
  obtain ⟨is, rfl, hs⟩ := h
  obtain ⟨js, rfl, ht⟩ := h'
  refine ⟨is ++ js, List.map_append.symm, ?_⟩
  rw [hs, ht, List.map_append, List.append_assoc]

theorem after (h : Pins ps t r) (hs : Pins [] s t) : Pins ps s r := hs.append h

theorem before (h : Pins ps s t) (hr : Pins [] t r) : Pins ps s r := by
  simpa using h.append hr

end Pins

variable {s t r : List Char}

/-! ### Tokens -/

/-- Characters of a kind to which neither quotes nor the signs of positions belong are passed. -/
theorem positionLiterals_run {p : Char → Bool} (hquote : p '"' = false) (hsign : p '@' = false)
    {w : List Char} (hw : ∀ c ∈ w, p c) : positionLiterals (w ++ r) = positionLiterals r := by
  induction w with
  | nil => rfl
  | cons c w ih =>
    obtain ⟨hc, hw⟩ := List.forall_mem_cons.1 hw
    have hne : decide (c = '"') = false := decide_eq_false (ne_of_tells hc hquote)
    rw [positionLiterals, List.cons_append, positionLiteralsFrom, if_neg Bool.false_ne_true,
      if_neg (ne_of_tells hc hsign), hne]
    exact ih hw

theorem positionLiterals_blanks (h : Blanks s r) : positionLiterals s = positionLiterals r := by
  obtain ⟨w, hw, rfl⟩ := h
  exact positionLiterals_run rfl rfl hw

theorem positionLiterals_digits {l : List Char} (h : ∀ c ∈ l, c.isDigit) :
    positionLiterals (l ++ r) = positionLiterals r :=
  positionLiterals_run rfl rfl h

theorem positionLiterals_signed {minus : Bool} {l : List Char} (h : ∀ c ∈ l, c.isDigit) :
    positionLiterals (signed minus (l ++ r)) = positionLiterals r := by
  cases minus with
  | false => exact positionLiterals_digits h
  | true => exact positionLiterals_digits h

theorem Pins.word {w : String} (h : Word w s r) : Pins [] s r := by
  obtain ⟨hw, hm, -⟩ := h
  refine .nil ((positionLiterals_blanks hm).trans ?_)
  exact positionLiterals_run rfl rfl hw.isWordPart

theorem Pins.mark {m : String} (h : Mark m s r)
    (hm : m.toList.all fun c => c ≠ '"' && c ≠ '@') : Pins [] s r :=
  .nil ((positionLiterals_blanks h).trans
    (positionLiterals_run rfl rfl (List.all_eq_true.1 hm)))

theorem Pins.relation {o : Relation} (h : Mark o.symbol s r) : Pins [] s r :=
  .mark h (by cases o <;> decide)

theorem Pins.number {x : Binary64} (h : Number x s r) : Pins [] s r := by
  obtain ⟨minus, whole, places, m, hw, hp, hb, -⟩ := h
  refine .nil ((positionLiterals_blanks hb).trans ((positionLiterals_signed hw.2).trans ?_))
  by_cases hne : places = []
  · rw [hne]
    rfl
  · have hpoint : positionLiterals ('.' :: (places ++ r)) = positionLiterals (places ++ r) := rfl
    rw [pointed_of_ne_nil hne, List.cons_append, hpoint]
    exact positionLiterals_digits hp

theorem Pins.quotation {v : String} (h : Quotation v s r) : Pins [] s r := by
  obtain ⟨hv, hb⟩ := h
  have hstring : ∀ w : List Char, (∀ c ∈ w, isStringPart c) →
      positionLiteralsFrom true (w ++ '"' :: r) = positionLiterals r := by
    intro w hw
    induction w with
    | nil => rfl
    | cons c w ih =>
      obtain ⟨hc, hw⟩ := List.forall_mem_cons.1 hw
      have hne : decide (c ≠ '"') = true := decide_eq_true (ne_of_tells hc rfl)
      rw [List.cons_append, positionLiteralsFrom, if_pos rfl, hne]
      exact ih hw
  exact .nil ((positionLiterals_blanks hb).trans (hstring v.toList hv))

/-- The index that follows the sign of a position is the integer found there. -/
theorem Pins.position {i : Int64} {u : List Char} (hm : Mark "@" s u) (hi : Index i u r)
    (hr : Stops Char.isDigit r) : Pins [.absolute i] s r := by
  refine ⟨[i], rfl, (positionLiterals_blanks hm).trans ?_⟩
  obtain ⟨minus, digits, hd, hb, hvalue⟩ := hi
  have hleading : leadingInteger (skipBlanks u) = i.toInt := by
    have hstart := stops_signed hd rfl (fun _ => isBlank_of_isDigit) minus r
    rw [(blanks_iff hstart).1 hb, leadingInteger,
      splitMinus_signed (stops_digits hd (fun _ => ne_minus_of_isDigit) r),
      takeWhile_append_of_stops hd.2 hr, hvalue]
  have hrest : positionLiterals u = positionLiterals r :=
    (positionLiterals_blanks hb).trans (positionLiterals_signed hd.2)
  have hsign : positionLiterals ("@".toList ++ u) =
      leadingInteger (skipBlanks u) :: positionLiterals u := rfl
  rw [hsign, hleading, hrest]
  rfl

/-! ### Phrases -/

theorem Pins.term {v : Term} (h : TermPhrase s v r) (hr : Ended r) : Pins v.positions s r := by
  cases h with
  | bare hn => exact .word hn.1
  | pinned hn hm hi => exact (Pins.position hm hi (stops_isDigit hr.stops)).after (.word hn.1)

theorem Pins.operand {v : Operand} (h : OperandPhrase s v r) (hr : Ended r) :
    Pins v.positions s r := by
  cases h with
  | number hx => exact .number hx
  | true hw | false hw => exact .word hw
  | string hv => exact .quotation hv
  | term ht => exact .term ht hr

theorem Pins.condition {tier : Tier} {c : Condition} (h : ConditionPhrase tier s c r)
    (hr : Ended r) : Pins c.positions s r := by
  induction h with
  | comparison hc =>
    obtain ⟨ht, ho, hv⟩ := hc
    exact (Pins.term ht (ended_of_symbol ho)).append ((Pins.operand hv hr).after (.relation ho))
  | parentheses hopen _ hclose ih =>
    have hinner := ih (unlinked_of_closing hclose).ended
    exact (hinner.after (.mark hopen (by decide))).before (.mark hclose (by decide))
  | primary _ ih | conjunction _ ih => exact ih hr
  | and _ hw _ ihc ihd | or _ hw _ ihc ihd =>
    exact (ihc hw.ended).append ((ihd hr).after (.word hw))

theorem Pins.slot {v : Slot} (h : SlotPhrase s v r) (hr : Ended r) : Pins v.positions s r := by
  cases h with
  | bare hn => exact .word hn.1
  | constrained hn hopen hc hclose =>
    have hinner := Pins.condition hc (unlinked_of_closing hclose).ended
    have hmarked := (hinner.after (.mark hopen (by decide))).before (.mark hclose (by decide))
    simpa [Slot.positions] using hmarked.after (.word hn.1)
  | pinned hn hm hi => exact (Pins.position hm hi (stops_isDigit hr.stops)).after (.word hn.1)

theorem Pins.separator {sep : Separator} (h : sep.Stands s r) : Pins [] s r := by
  cases sep with
  | comma => exact .mark h (by decide)
  | blanks => exact .nil (congrArg positionLiterals h)

theorem Pins.slots {sep : Separator} {p : Pattern} (h : SlotsPhrase sep.Stands s p r)
    (hr : Ended r) : Pins p.positions s r := by
  induction h with
  | one hv => simpa [Pattern.positions] using Pins.slot hv hr
  | more hv hsep hp ih =>
    obtain ⟨w, q, hw⟩ := hp.slot
    exact (Pins.slot hv (hsep.ended hw)).append ((ih hr).after (.separator hsep))

theorem Pins.pattern {p : Pattern} (h : PatternPhrase s p r) (hr : Ended r) :
    Pins p.positions s r := by
  cases h with
  | commas hp =>
    have hslots : SlotsPhrase Separator.comma.Stands s p r := hp
    exact .slots hslots hr
  | sideBySide hp =>
    have hslots : SlotsPhrase Separator.blanks.Stands s p r := hp
    exact .slots hslots hr
  | arrow hv hm hw =>
    have ht := (mark_iff (stops_cons.2 rfl)).1 hm
    have hsecond := (Pins.slot hw hr).after (.mark hm (by decide))
    simpa [Pattern.positions] using
      (Pins.slot hv (ended_of_skipBlanks ht rfl)).append hsecond

/-- The positions of a rule are those that its text names, in the order in which it does. -/
theorem positions_of_derives {v : Rule} (h : Derives s v) :
    ∃ indices : List Int64, v.positions = indices.map .absolute ∧
      positionLiterals s = indices.map Int64.toInt := by
  obtain ⟨rest, hv, hrest⟩ := h
  have hend := ended_of_blanks hrest
  have hpins : Pins v.positions s rest := by
    cases hv with
    | simple hp => exact Pins.pattern hp hend
    | conditional hif hc hthen hp =>
      have hcondition := (Pins.condition hc hthen.ended).after (.word hif)
      simpa [Rule.positions] using
        hcondition.append ((Pins.pattern hp hend).after (.word hthen))
    | alternative hif hc hthen hp helse hq =>
      have hcondition := (Pins.condition hc hthen.ended).after (.word hif)
      have hbranch := (Pins.pattern hp helse.ended).after (.word hthen)
      simpa [Rule.positions] using
        (hcondition.append hbranch).append ((Pins.pattern hq hend).after (.word helse))
  obtain ⟨indices, hpositions, hliterals⟩ := hpins
  refine ⟨indices, hpositions, ?_⟩
  rw [hliterals, positionLiterals_blanks hrest]
  exact List.append_nil _

end Lineup.RuleText
