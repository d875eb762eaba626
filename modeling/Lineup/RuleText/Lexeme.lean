import Lineup.Binary64.Decimal
import Lineup.Integer
import Lineup.Rule.Text
import Lineup.RuleText.Failure
import Lineup.Text.Blank

/-!
# Words, literals and comparisons

The parts of a rule that do not nest. A word extends as far as it can, and the seven keywords are
never names. Each reader is followed by the fact that it leaves a shorter rest, on which the
readers of nested parts rely.
-/

namespace Lineup.RuleText

open Text (skipBlanks skipBlanks_suffix Remains remains_dropWhile)

def isWordStart (c : Char) : Bool := c.isAlpha || c = '_'

def isWordPart (c : Char) : Bool := c.isAlphanum || c = '_'

def keywords : List String := ["if", "then", "else", "and", "or", "true", "false"]

def word? : List Char → Option (String × List Char)
  | [] => none
  | c :: s =>
    if isWordStart c then some (String.ofList (c :: s.takeWhile isWordPart), s.dropWhile isWordPart)
    else none

/-- Reads one given keyword. -/
def keyword? (w : String) (s : List Char) : Option (List Char) :=
  match word? s with
  | some (v, r) => if v = w then some r else none
  | none => none

/-- Reads a word that is no keyword. -/
def name? (s : List Char) : Option (String × List Char) :=
  match word? s with
  | some (v, r) => if v ∈ keywords then none else some (v, r)
  | none => none

/-- Splits a minus sign off. -/
def splitMinus : List Char → Bool × List Char
  | '-' :: s => (true, s)
  | s => (false, s)

def withSign (minus : Bool) (n : Nat) : Int := if minus then -n else n

/-- Reads an index. One that does not fit sixty-four bits is not read at all, so the failure is at
its start; without digits the failure is where they are missing. -/
def index (s : List Char) : Reading Int64 :=
  let (minus, t) := splitMinus s
  let digits := t.takeWhile Char.isDigit
  if digits = [] then .error ⟨t, .expected .positionIndex⟩
  else
    match int64? (withSign minus (Nat.ofDigitChars 10 digits 0)) with
    | some n => .ok (n, t.dropWhile Char.isDigit)
    | none => .error ⟨s, .expected .positionIndex⟩

/-- The digits after a point, if there is at least one. -/
def fraction : List Char → List Char × List Char
  | '.' :: s =>
    if s.takeWhile Char.isDigit = [] then ([], '.' :: s)
    else (s.takeWhile Char.isDigit, s.dropWhile Char.isDigit)
  | s => ([], s)

def number? (s : List Char) : Option (Binary64 × List Char) :=
  let (minus, t) := splitMinus s
  let whole := t.takeWhile Char.isDigit
  if whole = [] then none
  else
    let (places, r) := fraction (t.dropWhile Char.isDigit)
    some (.ofDecimal minus (.ofDigits whole places 0), r)

/-- Whether a character can stand in a string. -/
def isStringPart (c : Char) : Bool := c ≠ '"' && c ≠ '\n' && c ≠ '\r'

/-- Reads a string whose opening quote has been read. -/
def stringTail (s : List Char) : Reading String :=
  match s.dropWhile isStringPart with
  | '"' :: r => .ok (String.ofList (s.takeWhile isStringPart), r)
  | r => .error ⟨r, .openString⟩

def relation? : List Char → Option (Relation × List Char)
  | '!' :: '=' :: r => some (.ne, r)
  | '<' :: '=' :: r => some (.le, r)
  | '>' :: '=' :: r => some (.ge, r)
  | '=' :: r => some (.eq, r)
  | '<' :: r => some (.lt, r)
  | '>' :: r => some (.gt, r)
  | _ => none

/-- Reads a position, if the mark of one follows. -/
def position? (s : List Char) : Reading (Option Position) :=
  match skipBlanks s with
  | '@' :: r =>
    match index (skipBlanks r) with
    | .ok (n, r') => .ok (some (.absolute n), r')
    | .error e => .error e
  | _ => .ok (none, s)

/-- Reads a property, where `e` is asked for. -/
def term (e : Expectation) (s : List Char) : Reading Term :=
  match name? s with
  | none => .error ⟨s, .expected e⟩
  | some (name, r) =>
    match position? r with
    | .ok (p, r') => .ok (⟨name, p⟩, r')
    | .error e => .error e

def boolean? (s : List Char) : Option (Bool × List Char) :=
  match keyword? "true" s with
  | some r => some (true, r)
  | none => (keyword? "false" s).map (false, ·)

def operand : List Char → Reading Operand
  | '"' :: r =>
    match stringTail r with
    | .ok (v, r') => .ok (.string v, r')
    | .error e => .error e
  | s =>
    match number? s with
    | some (x, r) => .ok (.number x, r)
    | none =>
      match boolean? s with
      | some (b, r) => .ok (.boolean b, r)
      | none =>
        match term .value s with
        | .ok (t, r) => .ok (.term t, r)
        | .error e => .error e

def comparison (s : List Char) : Reading Comparison :=
  match term .condition s with
  | .error e => .error e
  | .ok (subject, r) =>
    match relation? (skipBlanks r) with
    | none => .error ⟨skipBlanks r, .expected .relation⟩
    | some (relation, r') =>
      match operand (skipBlanks r') with
      | .ok (v, r'') => .ok (⟨subject, relation, v⟩, r'')
      | .error e => .error e

/-! ### What the readers leave -/

theorem remains_word? {s r : List Char} {v : String} (h : word? s = some (v, r)) : Remains r s := by
  cases s with
  | nil => simp [word?] at h
  | cons c s =>
    simp only [word?] at h
    split at h
    · cases h
      exact .of_cons c (List.dropWhile_suffix _)
    · cases h

theorem remains_keyword? {w : String} {s r : List Char} (h : keyword? w s = some r) :
    Remains r s := by
  unfold keyword? at h
  split at h
  · rename_i hw
    split at h
    · cases h; exact remains_word? hw
    · cases h
  · cases h

theorem remains_name? {s r : List Char} {v : String} (h : name? s = some (v, r)) : Remains r s := by
  unfold name? at h
  split at h
  · rename_i hw
    split at h
    · cases h
    · cases h; exact remains_word? hw
  · cases h

theorem splitMinus_suffix (s : List Char) : (splitMinus s).2 <:+ s := by
  unfold splitMinus
  split
  · exact List.suffix_cons ..
  · exact List.suffix_refl s

theorem remains_index {s r : List Char} {n : Int64} (h : index s = .ok (n, r)) : Remains r s := by
  simp only [index] at h
  split at h
  · cases h
  · rename_i hd
    split at h
    · cases h
      exact (remains_dropWhile hd).after (splitMinus_suffix s)
    · cases h

theorem fraction_suffix (s : List Char) : (fraction s).2 <:+ s := by
  unfold fraction
  split
  · split
    · exact List.suffix_refl _
    · exact (List.dropWhile_suffix _).trans (List.suffix_cons ..)
  · exact List.suffix_refl _

theorem remains_number? {s r : List Char} {x : Binary64} (h : number? s = some (x, r)) :
    Remains r s := by
  simp only [number?] at h
  split at h
  · cases h
  · rename_i hd
    cases h
    exact .before (fraction_suffix _) ((remains_dropWhile hd).after (splitMinus_suffix s))

theorem stringTail_suffix {s r : List Char} {v : String} (h : stringTail s = .ok (v, r)) :
    r <:+ s := by
  unfold stringTail at h
  split at h
  · rename_i hq
    cases h
    exact (List.suffix_cons ..).trans (hq ▸ List.dropWhile_suffix _)
  · cases h

theorem remains_relation? {s r : List Char} {o : Relation} (h : relation? s = some (o, r)) :
    Remains r s := by
  unfold relation? at h
  split at h <;> cases h <;> exact .of_cons _ (by simp)

theorem position?_suffix {s r : List Char} {p : Option Position} (h : position? s = .ok (p, r)) :
    r <:+ s := by
  unfold position? at h
  split at h
  · rename_i q hq
    split at h
    · rename_i hi
      cases h
      have hr := (remains_index hi).1.trans (skipBlanks_suffix q)
      exact (hr.trans (List.suffix_cons ..)).trans (hq ▸ skipBlanks_suffix s)
    · cases h
  · cases h
    exact List.suffix_refl _

theorem remains_term {e : Expectation} {s r : List Char} {t : Term} (h : term e s = .ok (t, r)) :
    Remains r s := by
  unfold term at h
  split at h
  · cases h
  · rename_i hn
    split at h
    · rename_i hp
      cases h
      exact .before (position?_suffix hp) (remains_name? hn)
    · cases h

theorem remains_boolean? {s r : List Char} {b : Bool} (h : boolean? s = some (b, r)) :
    Remains r s := by
  unfold boolean? at h
  split at h
  · rename_i hk
    cases h; exact remains_keyword? hk
  · obtain ⟨_, hk, he⟩ := Option.map_eq_some_iff.1 h
    cases he; exact remains_keyword? hk

theorem remains_operand {s r : List Char} {v : Operand} (h : operand s = .ok (v, r)) :
    Remains r s := by
  unfold operand at h
  split at h
  · split at h
    · rename_i hs
      cases h; exact .of_cons _ (stringTail_suffix hs)
    · cases h
  · split at h
    · rename_i hn
      cases h; exact remains_number? hn
    · split at h
      · rename_i hb
        cases h; exact remains_boolean? hb
      · split at h
        · rename_i ht
          cases h; exact remains_term ht
        · cases h

theorem remains_comparison {s r : List Char} {c : Comparison} (h : comparison s = .ok (c, r)) :
    Remains r s := by
  unfold comparison at h
  split at h
  · cases h
  · rename_i ht
    split at h
    · cases h
    · rename_i hr
      split at h
      · rename_i ho
        cases h
        exact ((remains_operand ho).skipBlanks.trans (remains_relation? hr).skipBlanks).trans
          (remains_term ht)
      · cases h

end Lineup.RuleText
