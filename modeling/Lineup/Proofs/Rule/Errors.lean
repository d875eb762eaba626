import Lineup.Proofs.RuleText.Slicing

/-!
# What errors address

The message of an error of parsing names a token or a character, and the error is located at the
place in the text where that stands (`Rule.parse_error_located`). A message is just a text, and a
token in it may look like the rest of the message, so whatever the message can be read to name has
to stand there.
-/

namespace Lineup

open Text (Location isBlank skipBlanks Stops stops_cons stops_dropWhile)
open RuleText

/-- Says that `t`, as a message has it, names the token that `rest` starts with. -/
def NamesToken (t : String) (rest : List Char) : Prop :=
  (t = "<EOF>" ∧ rest = []) ∨ (t ≠ "" ∧ t.toList <+: rest ∧ Stops isBlank rest)

/-- Says that `rest` starts with what a message names, however the message is read. -/
structure Addresses (message : String) (rest : List Char) : Prop where
  mismatched : ∀ t x, message = "mismatched input '" ++ t ++ "' expecting " ++ x →
    NamesToken t rest
  unexpected : ∀ t, message = "Unexpected token '" ++ t ++ "'" → NamesToken t rest
  unrecognized : ∀ c, message = "Unrecognized character '" ++ c.toString ++ "'" →
    rest.head? = some c
  openString : message = "Unterminated string" → rest.head? = some '"'

/-! ### Tokens in messages -/

section Tokens

variable {s : List Char}

/-- In a text without faults of characters no token starts with an apostrophe. -/
theorem stops_apostrophe (h : charFault? s = none) : Stops (· = '\'') s := by
  intro c hc
  obtain ⟨r, rfl⟩ := List.head?_eq_some_iff.1 hc
  apply decide_eq_false
  rintro rfl
  rw [charFault?_unrecognized (by decide) rfl] at h
  cases h

theorem namesToken_token (h : Stops isBlank s) : NamesToken (ParseFault.tokenText (token s)) s := by
  by_cases hs : s = []
  · subst hs
    exact .inl ⟨rfl, rfl⟩
  · rw [ParseFault.tokenText, if_neg (token_ne_nil hs)]
    refine .inr ⟨?_, ?_, h⟩
    · rw [Ne, String.ofList_eq_empty_iff]
      exact token_ne_nil hs
    · rw [String.toList_ofList]
      exact token_prefix s

/-- What a message has between the token and the thing expected does not stand further on. -/
theorem eq_nil_of_expecting {e : Expectation} {a x : List Char}
    (h : "' expecting ".toList ++ e.description.toList = a ++ ("' expecting ".toList ++ x)) :
    a = [] := by
  have hlater : ∀ n ∈ List.range 20, n ≠ 0 →
      ¬ "' expecting ".toList <+: ("' expecting ".toList ++ e.description.toList).drop n := by
    cases e <;> decide
  have hlength : e.description.toList.length < 20 := by
    cases e <;> decide
  by_contra hne
  have hsum := congrArg List.length h
  simp only [List.length_append] at hsum
  refine hlater a.length (List.mem_range.2 (by omega)) (by simpa using hne) ?_
  rw [h, List.drop_left]
  exact List.prefix_append _ x

/-- What stands in a token before an apostrophe names the token too, as it is not nothing. -/
theorem namesToken_of_apostrophe {t : String} {a : List Char} (hblank : Stops isBlank s)
    (hapostrophe : Stops (· = '\'') s)
    (h : (ParseFault.tokenText (token s)).toList = t.toList ++ '\'' :: a) : NamesToken t s := by
  by_cases hs : s = []
  · subst hs
    have hmem : '\'' ∈ (ParseFault.tokenText (token [])).toList := by
      rw [h]
      exact List.mem_append_right _ List.mem_cons_self
    exact absurd hmem (by decide)
  · rw [ParseFault.tokenText, if_neg (token_ne_nil hs), String.toList_ofList] at h
    have hprefix := token_prefix s
    rw [h] at hprefix
    refine .inr ⟨?_, (List.prefix_append _ _).trans hprefix, hblank⟩
    rintro rfl
    obtain ⟨r, rfl⟩ := hprefix
    cases stops_cons.1 hapostrophe

/-- However a message about an expected token is read, it names the token. -/
theorem namesToken_of_mismatched {e : Expectation} {t x : String} (hblank : Stops isBlank s)
    (hapostrophe : Stops (· = '\'') s)
    (h : "mismatched input '" ++ ParseFault.tokenText (token s) ++ "' expecting " ++ e.description =
      "mismatched input '" ++ t ++ "' expecting " ++ x) : NamesToken t s := by
  have hlist := congrArg String.toList h
  simp only [String.toList_append, List.append_assoc, List.append_cancel_left_eq] at hlist
  have hwhole : t.toList = (ParseFault.tokenText (token s)).toList → NamesToken t s := by
    intro ht
    rw [String.toList_inj.1 ht]
    exact namesToken_token hblank
  rcases List.append_eq_append_iff.1 hlist with ⟨a, ht, ha⟩ | ⟨a, ht, ha⟩
  · rw [eq_nil_of_expecting ha, List.append_nil] at ht
    exact hwhole ht
  · cases a with
    | nil =>
      rw [List.append_nil] at ht
      exact hwhole ht.symm
    | cons c a =>
      obtain ⟨rfl, -⟩ := List.cons.inj ha
      exact namesToken_of_apostrophe hblank hapostrophe ht

end Tokens

/-! ### Messages -/

namespace ParseFault

/-- Says that `rest` starts with a fault. One that is not about a place in the text stands
anywhere. -/
inductive StandsAt : ParseFault → List Char → Prop where
  | empty {rest : List Char} : StandsAt .empty rest
  | openString {rest : List Char} : StandsAt .openString ('"' :: rest)
  | unrecognized {c : Char} {rest : List Char} : StandsAt (.unrecognized c) (c :: rest)
  | mismatched {e : Expectation} {rest : List Char} : Stops isBlank rest →
    Stops (· = '\'') rest → StandsAt (.mismatched (token rest) e) rest
  | unexpected {rest : List Char} : Stops isBlank rest → StandsAt (.unexpected (token rest)) rest
  | position {f : PositionFault} {rest : List Char} : StandsAt (.position f) rest

/-- The first letters of a message, which tell what kind of fault it is about. -/
def opening : ParseFault → List Char
  | empty => "Emp".toList
  | openString => "Unt".toList
  | unrecognized _ => "Unr".toList
  | mismatched _ _ => "mis".toList
  | unexpected _ => "Une".toList
  | position (.negative _) => "Abs".toList
  | position (.relative _) => "rel".toList

theorem opening_append (m : String) (hm : 3 ≤ m.toList.length) (w w' : String) :
    (m ++ w ++ w').toList.take 3 = m.toList.take 3 := by
  rw [String.append_assoc, String.toList_append, List.take_append_of_le_length hm]

theorem take_message (f : ParseFault) : f.message.toList.take 3 = f.opening := by
  cases f with
  | empty | openString => rfl
  | unrecognized c => exact opening_append _ (by decide) c.toString "'"
  | mismatched t e =>
    have h := opening_append "mismatched input '" (by decide) (tokenText t)
      ("' expecting " ++ e.description)
    rwa [← String.append_assoc] at h
  | unexpected t => exact opening_append _ (by decide) (tokenText t) "'"
  | position f =>
    cases f with
    | negative n => exact opening_append _ (by decide) (toString n.toInt) ")"
    | relative n => exact opening_append _ (by decide) (toString n.toInt) ")"

namespace StandsAt

variable {f : ParseFault} {rest : List Char}

theorem names_mismatched (h : f.StandsAt rest) {t x : String}
    (hm : f.message = "mismatched input '" ++ t ++ "' expecting " ++ x) : NamesToken t rest := by
  have hopening : f.opening = "mis".toList := by
    rw [← take_message, hm, String.append_assoc]
    exact opening_append _ (by decide) t ("' expecting " ++ x)
  cases h with
  | mismatched hblank hapostrophe => exact namesToken_of_mismatched hblank hapostrophe hm
  | @position f => cases f <;> simp [opening] at hopening
  | _ => simp [opening] at hopening

theorem names_unexpected (h : f.StandsAt rest) {t : String}
    (hm : f.message = "Unexpected token '" ++ t ++ "'") : NamesToken t rest := by
  have hopening : f.opening = "Une".toList := by
    rw [← take_message, hm]
    exact opening_append _ (by decide) t "'"
  cases h with
  | unexpected hblank =>
    have hlist : ("Unexpected token '" ++ tokenText (token rest) ++ "'").toList =
        ("Unexpected token '" ++ t ++ "'").toList := congrArg String.toList hm
    simp only [String.toList_append, List.append_cancel_right_eq,
      List.append_cancel_left_eq] at hlist
    rw [← String.toList_inj.1 hlist]
    exact namesToken_token hblank
  | @position f => cases f <;> simp [opening] at hopening
  | _ => simp [opening] at hopening

theorem names_unrecognized (h : f.StandsAt rest) {c : Char}
    (hm : f.message = "Unrecognized character '" ++ c.toString ++ "'") : rest.head? = some c := by
  have hopening : f.opening = "Unr".toList := by
    rw [← take_message, hm]
    exact opening_append _ (by decide) c.toString "'"
  cases h with
  | @unrecognized d r =>
    have hlist : ("Unrecognized character '" ++ d.toString ++ "'").toList =
        ("Unrecognized character '" ++ c.toString ++ "'").toList := congrArg String.toList hm
    simp only [String.toList_append, List.append_cancel_right_eq,
      List.append_cancel_left_eq] at hlist
    exact congrArg some (by simpa using hlist)
  | @position f => cases f <;> simp [opening] at hopening
  | _ => simp [opening] at hopening

theorem names_openString (h : f.StandsAt rest) (hm : f.message = "Unterminated string") :
    rest.head? = some '"' := by
  have hopening : f.opening = "Unt".toList := by
    rw [← take_message, hm]
    rfl
  cases h with
  | openString => rfl
  | @position f => cases f <;> simp [opening] at hopening
  | _ => simp [opening] at hopening

/-- What a message names stands where its fault stands. -/
theorem addresses (h : f.StandsAt rest) : Addresses f.message rest where
  mismatched _ _ := h.names_mismatched
  unexpected _ := h.names_unexpected
  unrecognized _ := h.names_unrecognized
  openString := h.names_openString

end StandsAt

theorem standsAt_of_startsFaulty {f : CharFault} {s rest : List Char} (h : StartsFaulty rest f) :
    (ParseError.ofCharFault s f rest).fault.StandsAt rest := by
  cases h with
  | openString => exact .openString
  | unrecognized => exact .unrecognized

end ParseFault

/-! ### Errors of parsing -/

namespace Rule

/-- How a text `s` is rejected with an error. -/
inductive Rejects (s : List Char) : ParseError → Prop where
  | empty : skipBlanks s = [] → Rejects s ⟨.origin, .empty⟩
  | characters {f : CharFault} {rest : List Char} : skipBlanks s ≠ [] →
    charFault? s = some (f, rest) → Rejects s (.ofCharFault s f rest)
  | reading {f : Failure} : skipBlanks s ≠ [] → charFault? s = none → wholeRule s = .error f →
    Rejects s (.ofFailure s f)
  | validity {r : Rule} {f : PositionFault} : skipBlanks s ≠ [] → wholeRule s = .ok r →
    r.fault? = some f → Rejects s (.ofPosition f)

theorem rejects_of_parse {text : String} {e : ParseError} (h : Rule.parse text = .error e) :
    Rejects text.toList e := by
  simp only [parse] at h
  split at h
  · rename_i hblank
    cases h
    exact .empty hblank
  rename_i hblank
  split at h
  · rename_i hchars
    cases h
    exact .characters hblank hchars
  rename_i hchars
  split at h
  · rename_i hread
    cases h
    exact .reading hblank hchars hread
  rename_i hread
  split at h
  · rename_i hfault
    cases h
    exact .validity hblank hread hfault
  · cases h

variable {s : List Char} {e : ParseError}

/-- An error is located where its fault stands. -/
theorem Rejects.standsAt (h : Rejects s e) :
    ∃ rest, rest <:+ s ∧ e.location = .ofRest s rest ∧ e.fault.StandsAt rest := by
  have horigin : Location.origin = .ofRest s s := (Location.ofRest_append [] s).symm
  cases h with
  | empty => exact ⟨s, List.suffix_refl s, horigin, .empty⟩
  | @characters f rest _ hchars =>
    have hfirst := charFault?_eq_some_iff.1 hchars
    exact ⟨rest, hfirst.outside.suffix, rfl, ParseFault.standsAt_of_startsFaulty hfirst.faulty⟩
  | @reading f _ hchars hread =>
    have hreach := (reaches_of_wholeRule hchars hread).trans (.skipBlanks f.rest)
    have hblank := stops_dropWhile isBlank f.rest
    have hapostrophe := stops_apostrophe (hreach.charFault? ▸ hchars)
    refine ⟨skipBlanks f.rest, hreach.suffix, rfl, ?_⟩
    have hopen := openString_ne_of_wholeRule hchars hread
    obtain ⟨rest, trouble⟩ := f
    cases trouble with
    | expected e => exact .mismatched hblank hapostrophe
    | unexpected => exact .unexpected hblank
    | openString => exact absurd rfl hopen
  | validity => exact ⟨s, List.suffix_refl s, horigin, .position⟩

/-- Where there is nothing to point at the location is the start of the text. -/
theorem Rejects.location_eq (h : Rejects s e)
    (hnowhere : (∀ c ∈ s, isBlank c) ∨ ∃ f, e.fault = .position f) : e.location = .origin := by
  have hblank : skipBlanks s ≠ [] → ∃ f, e.fault = .position f := by
    intro hne
    exact hnowhere.resolve_left fun hs => hne (List.dropWhile_eq_nil_iff.2 hs)
  cases h with
  | empty | validity => rfl
  | @characters f _ hne =>
    obtain ⟨_, hfault⟩ := hblank hne
    cases f <;> cases hfault
  | @reading f hne =>
    obtain ⟨_, hfault⟩ := hblank hne
    obtain ⟨_, trouble⟩ := f
    cases trouble <;> cases hfault

/-- **Errors are located at what they name**: putting errors together by byte offsets never gets
stuck, and the location of an error is that of one place in the text, where there stands what the
message names. A blank text and a rule that is not valid are reported at the start. -/
theorem parse_error_located (text : String) :
    Rule.parseSliced? text = some (Rule.parse text) ∧
      ∀ e, Rule.parse text = .error e →
        (∃ rest, e.location.IsAt text.toList rest ∧
          (∀ rest', e.location.IsAt text.toList rest' → rest' = rest) ∧
          Addresses e.fault.message rest) ∧
        ((∀ c ∈ text.toList, isBlank c) ∨ (∃ f, e.fault = .position f) →
          e.location = ⟨1, 0⟩) := by
  refine ⟨parseSliced?_eq text, fun e he => ?_⟩
  have hrejects := rejects_of_parse he
  refine ⟨?_, hrejects.location_eq⟩
  obtain ⟨rest, hsuffix, hlocation, hstands⟩ := hrejects.standsAt
  have hat : e.location.IsAt text.toList rest := by
    rw [hlocation]
    exact Location.isAt_ofRest hsuffix
  exact ⟨rest, hat, fun _ hat' => hat'.unique hat, hstands.addresses⟩

/-- Two blanks of three bytes each stand before the token on the second line. -/
theorem parse_error_located_arrow :
    Rule.parse "ace ->\n\u3000\u3000-> king" = .error ⟨⟨2, 2⟩, .mismatched ['-', '>'] .element⟩ ∧
      ∃ rest, Location.IsAt ⟨2, 2⟩ "ace ->\n\u3000\u3000-> king".toList rest ∧
        NamesToken "->" rest := by
  have herror : Rule.parse "ace ->\n\u3000\u3000-> king" =
      .error ⟨⟨2, 2⟩, .mismatched ['-', '>'] .element⟩ := by rfl
  obtain ⟨-, hlocated⟩ := parse_error_located "ace ->\n\u3000\u3000-> king"
  obtain ⟨⟨rest, hat, -, haddresses⟩, -⟩ := hlocated _ herror
  exact ⟨herror, rest, hat, haddresses.mismatched "->" "element" rfl⟩

end Rule

end Lineup
