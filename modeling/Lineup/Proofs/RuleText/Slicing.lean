import Lineup.Proofs.RuleText.Failures
import Lineup.Proofs.Text.Location

/-!
# Errors by byte offsets

An error can be put together from the byte offset at which reading gave up, by slicing the text at
offsets: at the one given, behind the blanks that follow it, behind the last line feed before that
place, and at the end of the token there. Each of them is the offset of a place in the text, so a
parser that puts its errors together in this way never gets stuck, and it answers as `Rule.parse`
does (`Rule.parseSliced?_eq`).
-/

namespace Lineup

open Text (Location skipBlanks skipBlanks_suffix byteLength sliceTo? sliceTo?_append sliceFrom?
  sliceFrom?_append offsetOf sliceFrom?_offsetOf findByte? findByte?_eq findByte?_getD
  takeWhile_spec stops_cons)
open RuleText

/-! ### Tokens -/

namespace RuleText

/-- The offset at which the token ends that a text starts with. -/
def tokenEnd? : List Char → Option Nat
  | [] => some 0
  | c :: s =>
    if isWordPart c then
      (findByte? (fun d => !(isWordPart d || d = '.')) (c :: s)).getD (byteLength (c :: s))
    else if c = '"' then do
      let r ← sliceFrom? (c :: s) 1
      return ((findByte? (· = '"') r).map (· + 2)).getD (byteLength (c :: s))
    else if ["!=", "<=", ">=", "->"].any fun m => m.toList.isPrefixOf (c :: s) then some 2
    else some c.utf8Size

/-- The token that a text starts with, cut off at its end. -/
def tokenSliced? (s : List Char) : Option (List Char) := do sliceTo? s (← tokenEnd? s)

theorem tokenEnd?_quote (s : List Char) :
    tokenEnd? ('"' :: s) = some (byteLength (token ('"' :: s))) := by
  have hslice : sliceFrom? ('"' :: s) 1 = some s := sliceFrom?_append ['"'] s
  have hfind : findByte? (fun c => decide (c = '"')) s =
      if s.dropWhile (· ≠ '"') = [] then none else some (byteLength (s.takeWhile (· ≠ '"'))) := by
    simp only [findByte?_eq, ← decide_not]
  obtain ⟨hs, -, hstop⟩ := takeWhile_spec (· ≠ '"') s
  have hquote : isWordPart '"' = false := rfl
  rw [tokenEnd?, token]
  simp only [hquote, hslice, hfind, Bool.false_eq_true, if_false, if_true, Option.bind_eq_bind,
    Option.bind_some, Option.pure_def]
  cases hd : s.dropWhile (· ≠ '"') with
  | nil =>
    rw [hd, List.append_nil] at hs
    rw [← hs]
    simp
  | cons c r =>
    rw [hd, stops_cons, decide_eq_false_iff_not, not_not] at hstop
    subst hstop
    have hwidth : '"'.utf8Size = 1 := rfl
    simp only [List.cons_ne_nil, if_false, Option.map_some, Option.getD_some, List.take_succ_cons,
      List.take_zero, List.cons_append, Text.byteLength_cons, Text.byteLength_append,
      Text.byteLength_nil, hwidth]
    congr 1
    omega

/-- The end that is found is the end of the token. -/
theorem tokenEnd?_eq (s : List Char) : tokenEnd? s = some (byteLength (token s)) := by
  fun_cases token s with
  | case1 => rfl
  | case2 s => exact tokenEnd?_quote s
  | case3 | case4 | case5 | case6 => rfl
  | case7 c s _ _ _ _ _ hc =>
    rw [tokenEnd?, if_pos hc, findByte?_getD]
    simp only [Bool.not_not, List.takeWhile_cons, hc, Bool.true_or, if_true]
  | case8 c s hquote hne hle hge harrow hc =>
    have hpair : ∀ m ∈ ["!=", "<=", ">=", "->"], ¬ m.toList.isPrefixOf (c :: s) := by
      intro m hm hprefix
      obtain ⟨r, hr⟩ := List.isPrefixOf_iff_prefix.1 hprefix
      simp only [List.mem_cons, List.not_mem_nil, or_false] at hm
      rcases hm with rfl | rfl | rfl | rfl <;> obtain ⟨rfl, rfl⟩ := List.cons.inj hr
      · exact hne r rfl rfl
      · exact hle r rfl rfl
      · exact hge r rfl rfl
      · exact harrow r rfl rfl
    rw [tokenEnd?, if_neg hc, if_neg hquote, if_neg (by simpa using hpair)]
    rfl

theorem token_prefix (s : List Char) : token s <+: s := by
  fun_cases token s with
  | case1 => exact List.nil_prefix
  | case2 s =>
    obtain ⟨hs, -, -⟩ := takeWhile_spec (· ≠ '"') s
    apply (List.prefix_cons_inj '"').2
    conv_rhs => rw [hs]
    exact (List.prefix_append_right_inj _).2 (List.take_prefix 1 _)
  | case3 r | case4 r | case5 r | case6 r => exact List.prefix_append [_, _] r
  | case7 c s => exact (List.prefix_cons_inj c).2 (List.takeWhile_prefix _)
  | case8 c s => exact List.prefix_append [c] s

theorem token_ne_nil {s : List Char} (h : s ≠ []) : token s ≠ [] := by
  fun_cases token s with
  | case1 => exact absurd rfl h
  | case2 | case3 | case4 | case5 | case6 | case7 | case8 => exact nofun

theorem tokenSliced?_eq (s : List Char) : tokenSliced? s = some (token s) := by
  obtain ⟨r, hr⟩ := token_prefix s
  have hslice := sliceTo?_append (token s) r
  rw [hr] at hslice
  rw [tokenSliced?, tokenEnd?_eq]
  exact hslice

end RuleText

/-! ### Errors -/

/-- The error of a failure to read at a byte offset. -/
def ParseError.ofOffset? (s : List Char) (offset : Nat) (trouble : Trouble) :
    Option ParseError := do
  let behind ← sliceFrom? s offset
  let start := byteLength s - byteLength (skipBlanks behind)
  let token ← tokenSliced? (← sliceFrom? s start)
  let fault := match trouble with
    | .expected e => .mismatched token e
    | .unexpected => .unexpected token
    | .openString => .openString
  return ⟨← Location.atByte? s start, fault⟩

theorem ParseError.ofOffset?_eq {s : List Char} {f : Failure} (h : f.rest <:+ s) :
    ofOffset? s (offsetOf s f.rest) f.trouble = some (ofFailure s f) := by
  have hstart : skipBlanks f.rest <:+ s := (skipBlanks_suffix f.rest).trans h
  have hslice := sliceFrom?_offsetOf hstart
  have hlocation := Location.atByte?_offsetOf hstart
  rw [offsetOf] at hslice hlocation
  simp only [ofOffset?, sliceFrom?_offsetOf h, hslice, tokenSliced?_eq, hlocation,
    Option.bind_eq_bind, Option.bind_some, Option.pure_def]
  rfl

/-- Parses a text as `Rule.parse` does and puts errors together by byte offsets; nothing if it gets
stuck at one that is not the offset of a place. -/
def Rule.parseSliced? (text : String) : Option (Except ParseError Rule) :=
  let s := text.toList
  if skipBlanks s = [] then some (.error ⟨.origin, .empty⟩)
  else
    match charFault? s with
    | some (f, rest) =>
      (Location.atByte? s (offsetOf s rest)).map fun location =>
        .error { ParseError.ofCharFault s f rest with location }
    | none =>
      match wholeRule s with
      | .error f => (ParseError.ofOffset? s (offsetOf s f.rest) f.trouble).map .error
      | .ok r =>
        match r.fault? with
        | some f => some (.error (.ofPosition f))
        | none => some (.ok r)

/-- Putting errors together by byte offsets never gets stuck and yields the errors of parsing. -/
theorem Rule.parseSliced?_eq (text : String) : Rule.parseSliced? text = some (Rule.parse text) := by
  simp only [parseSliced?, parse]
  by_cases hblank : skipBlanks text.toList = []
  · simp only [if_pos hblank]
  simp only [if_neg hblank]
  cases hchars : charFault? text.toList with
  | some fault =>
    have hsuffix := (charFault?_eq_some_iff.1 hchars).outside.suffix
    simp only [Location.atByte?_offsetOf hsuffix, Option.map_some]
    rfl
  | none =>
    cases hread : wholeRule text.toList with
    | error f =>
      have hsuffix := (reaches_of_wholeRule hchars hread).suffix
      simp only [ParseError.ofOffset?_eq hsuffix, Option.map_some]
    | ok r => cases hfault : r.fault? <;> simp only [hfault]

end Lineup
