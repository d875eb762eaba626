import Lineup.Binary64.Numeral
import Lineup.Integer
import Lineup.Json.Compact.Lexeme
import Lineup.Json.Compact.Text
import Lineup.Json.Library

/-!
# Text as trees

The compact library reads one value with spaces, tabs and line ends around its tokens. How deep
values nest and how large numbers are is not looked at here: that is asked only of the parts of a
tree that are decoded.
-/

namespace Lineup.Json.Compact

open Text (Remains Rest)

def isSpace (c : Char) : Bool := c = ' ' || c = '\n' || c = '\t' || c = '\r'

def skipSpace (s : List Char) : List Char := s.dropWhile isSpace

theorem skipSpace_suffix (s : List Char) : skipSpace s <:+ s := List.dropWhile_suffix _

theorem remains_skipSpace {r s : List Char} (h : Remains r (skipSpace s)) : Remains r s :=
  h.after (skipSpace_suffix s)

theorem remains_of_skipSpace {c : Char} {r s : List Char} (h : skipSpace s = c :: r) :
    Remains r s :=
  .of_cons_suffix (h ▸ skipSpace_suffix s)

/-- Reads a given text. -/
def exactly? (w s : List Char) : Option (List Char) :=
  if w <+: s then some (s.drop w.length) else none

/-- The number that is written: an integer if it fits sixty-four bits and is no zero with a sign,
and otherwise the nearest float. -/
def numberOfChars? (lexeme : List Char) : Option Json :=
  match if lexeme = ['-', '0'] then none else (Binary64.signedDigits? lexeme).bind int64? with
  | some n => some (int n)
  | none => (Binary64.ofChars? lexeme).map float

/-- Reads a value that is neither an array, an object nor a string. -/
def scalar? (s : List Char) : Option (Json × List Char) :=
  if let some r := exactly? "null".toList s then some (null, r)
  else if let some r := exactly? "true".toList s then some (bool true, r)
  else if let some r := exactly? "false".toList s then some (bool false, r)
  else
    match number? s with
    | some (lexeme, r) => (numberOfChars? lexeme).map (·, r)
    | none => none

theorem remains_exactly? {w s r : List Char} (hw : w ≠ []) (h : exactly? w s = some r) :
    Remains r s := by
  unfold exactly? at h
  split at h
  · rename_i hp
    cases h
    have := hp.length_le
    have := List.length_pos_iff.2 hw
    exact ⟨List.drop_suffix _ _, by simp; omega⟩
  · cases h

theorem remains_scalar? {s r : List Char} {j : Json} (h : scalar? s = some (j, r)) :
    Remains r s := by
  unfold scalar? at h
  split at h
  · rename_i he
    cases h; exact remains_exactly? (by simp) he
  · split at h
    · rename_i he
      cases h; exact remains_exactly? (by simp) he
    · split at h
      · rename_i he
        cases h; exact remains_exactly? (by simp) he
      · split at h
        · rename_i hn
          obtain ⟨_, -, he⟩ := Option.map_eq_some_iff.1 h
          cases he; exact remains_number? hn
        · cases h

mutual

/-- Reads a value. -/
def value? (s : List Char) : Option (Json × Rest s) :=
  match h : skipSpace s with
  | '[' :: t =>
    have ht : Remains t s := remains_of_skipSpace h
    match h' : skipSpace t with
    | ']' :: r => some (array [], ⟨r, (remains_of_skipSpace h').trans ht⟩)
    | _ =>
      match elements? t with
      | some (l, r) => some (array l, ⟨r, r.2.trans ht⟩)
      | none => none
  | '\x7b' :: t =>
    have ht : Remains t s := remains_of_skipSpace h
    match h' : skipSpace t with
    | '\x7d' :: r => some (object [], ⟨r, (remains_of_skipSpace h').trans ht⟩)
    | _ =>
      match members? t with
      | some (l, r) => some (object l, ⟨r, r.2.trans ht⟩)
      | none => none
  | '"' :: t =>
    have ht : Remains t s := remains_of_skipSpace h
    match h' : stringTail? t with
    | some (v, r) => some (string v, ⟨r, (remains_stringTail? h').trans ht⟩)
    | none => none
  | t =>
    match h' : scalar? t with
    | some (j, r) => some (j, ⟨r, remains_skipSpace (h ▸ remains_scalar? h')⟩)
    | none => none
termination_by (s.length, 0)
decreasing_by all_goals exact .left _ _ ht.2

/-- Reads the elements of an array, of which there is one, up to its end. -/
def elements? (s : List Char) : Option (List Json × Rest s) :=
  match value? s with
  | none => none
  | some (j, r) =>
    match h : skipSpace r.1 with
    | ']' :: r' => some ([j], ⟨r', (remains_of_skipSpace h).trans r.2⟩)
    | ',' :: t =>
      have ht : Remains t s := (remains_of_skipSpace h).trans r.2
      match elements? t with
      | some (l, r') => some (j :: l, ⟨r', r'.2.trans ht⟩)
      | none => none
    | _ => none
termination_by (s.length, 1)
decreasing_by
  · exact .right _ (by decide)
  · exact .left _ _ ht.2

/-- Reads the members of an object, of which there is one, up to its end. -/
def members? (s : List Char) : Option (List (Option String × Json) × Rest s) :=
  match h : skipSpace s with
  | '"' :: t =>
    match h₁ : stringTail? t with
    | none => none
    | some (k, r) =>
      match h₂ : skipSpace r with
      | ':' :: t' =>
        have ht : Remains t' s :=
          ((remains_of_skipSpace h₂).trans (remains_stringTail? h₁)).trans (remains_of_skipSpace h)
        match value? t' with
        | none => none
        | some (j, r') =>
          have hr : Remains r'.1 s := r'.2.trans ht
          match h₃ : skipSpace r'.1 with
          | '\x7d' :: r'' =>
            some ([(k, j)], ⟨r'', (remains_of_skipSpace h₃).trans hr⟩)
          | ',' :: t'' =>
            have ht' : Remains t'' s := (remains_of_skipSpace h₃).trans hr
            match members? t'' with
            | some (l, r'') => some ((k, j) :: l, ⟨r'', r''.2.trans ht'⟩)
            | none => none
          | _ => none
      | _ => none
  | _ => none
termination_by (s.length, 1)
decreasing_by
  · exact .left _ _ ht.2
  · exact .left _ _ ht'.2

end

/-- Reads a text that is one value from end to end. -/
def parse? (text : String) : Option Json :=
  match value? text.toList with
  | some (j, r) => if skipSpace r.1 = [] then some j else none
  | none => none

end Compact

/-- A library that writes as little as it can and reads numbers as the nearest floats. -/
def compact : Library := ⟨Compact.text, Compact.parse?, 127⟩

end Lineup.Json
