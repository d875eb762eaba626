import Lineup.RuleText.Rule

/-!
# Readers with alternatives

The grammar of rules once more, put together from readers that may give way to others. Alternatives
are tried in order and at the same place. A reader that has committed itself leaves no alternative,
so where it fails the text is given up. What is said to be asked for there is what the innermost
reader says that asks for anything.
-/

namespace Lineup.RuleText

open Text (skipBlanks)

/-- What trying to read comes to. Unless a failure is final, an alternative may be tried. -/
inductive Attempt (α : Type) where
  | done (a : α) (rest : List Char)
  | failed (final : Bool) (f : Failure)

/-- A reader that may give way to others. -/
abbrev Trial (α : Type) : Type := List Char → Attempt α

namespace Trial

variable {α : Type}

/-! ### Combinations -/

instance : Monad Trial where
  pure a := fun s => .done a s
  bind t f := fun s =>
    match t s with
    | .done a r => f a r
    | .failed final e => .failed final e

def ofOption (read? : List Char → Option (α × List Char)) : Trial α := fun s =>
  match read? s with
  | some (a, r) => .done a r
  | none => .failed false ⟨s, .unexpected⟩

def ofReading (read : List Char → Reading α) : Trial α := fun s =>
  match read s with
  | .ok (a, r) => .done a r
  | .error f => .failed false f

def blanks : Trial Unit := fun s => .done () (skipBlanks s)

/-- Reads a given text. -/
def exactly (w : String) : Trial Unit := fun s =>
  if w.toList <+: s then .done () (s.drop w.length) else .failed false ⟨s, .unexpected⟩

/-- Tries the one, and then the other. -/
def alt (t u : Trial α) : Trial α := fun s =>
  match t s with
  | .failed false _ => u s
  | x => x

/-- Leaves no alternative if `t` fails. -/
def commit (t : Trial α) : Trial α := fun s =>
  match t s with
  | .failed _ f => .failed true f
  | x => x

/-- Says what was asked for where `t` fails, unless it says so itself. -/
def asking (e : Expectation) (t : Trial α) : Trial α := fun s =>
  match t s with
  | .failed final ⟨rest, .unexpected⟩ => .failed final ⟨rest, .expected e⟩
  | x => x

def optional (t : Trial α) : Trial (Option α) := fun s =>
  match t s with
  | .done a r => .done (some a) r
  | .failed false _ => .done none s
  | .failed true f => .failed true f

/-- Reads as often as possible. To read nothing over and over is a failure. -/
def many (t : Trial α) : Trial (List α) := fun s =>
  match t s with
  | .done a r =>
    if r.length < s.length then
      match many t r with
      | .done l r' => .done (a :: l) r'
      | .failed final f => .failed final f
    else .failed true ⟨s, .unexpected⟩
  | .failed false _ => .done [] s
  | .failed true f => .failed true f
termination_by s => s.length

/-- Reads as often as possible, and at least once. -/
def many₁ (t : Trial α) : Trial (List α) := do
  let a ← t
  let l ← many t
  return a :: l

/-! ### Comparisons -/

def keyword (w : String) : Trial Unit := ofOption fun s => (keyword? w s).map ((), ·)

def position : Trial Position := do
  blanks
  exactly "@"
  blanks
  return .absolute (← commit (ofReading index))

def property : Trial Term := do
  let name ← ofOption name?
  return ⟨name, ← optional position⟩

def quoted : Trial String := do
  exactly "\""
  commit (ofReading stringTail)

def operand : Trial Operand :=
  asking .value <|
    alt (do return .string (← quoted)) <|
    alt (do return .number (← ofOption number?)) <|
    alt (do keyword "true"; return .boolean true) <|
    alt (do keyword "false"; return .boolean false)
      (do return .term (← property))

def comparison : Trial Comparison := do
  let subject ← property
  blanks
  let relation ← commit (asking .relation (ofOption relation?))
  blanks
  return ⟨subject, relation, ← commit operand⟩

/-! ### Conditions -/

def closing : Trial Unit := asking .closing (exactly ")")

/-- Reads a comparison, or in parentheses what `inner` reads. -/
def primary (inner : Trial Condition) : Trial Condition := do
  blanks
  asking .condition <|
    alt
      (do
        exactly "("
        let c ← commit inner
        blanks
        commit closing
        return c)
      (do return .comparison (← comparison))

/-- Reads a chain of what `link` reads, joined by `op`. -/
def chain (op : Connective) (link : Trial Condition) : Trial Condition := do
  let first ← link
  let more ← many (do blanks; keyword op.word; commit link)
  return more.foldl (.join op) first

/-- Reads a condition in which parentheses are not nested deeper than `depth`. -/
def nested : Nat → Trial Condition
  | 0 => fun s => .failed true ⟨s, .unexpected⟩
  | depth + 1 => chain .or (chain .and (primary (nested depth)))

/-- Reads a condition, in which there are no more parentheses than characters. -/
def condition : Trial Condition := fun s => nested (s.length + 1) s

/-! ### Patterns -/

def slot : Trial Slot := do
  let name ← ofOption name?
  let constraint ← optional do
    blanks
    exactly "("
    commit do
      let c ← condition
      blanks
      closing
      return c
  let position ← match constraint with
    | some _ => pure none
    | none => optional position
  return ⟨name, constraint, position⟩

def nextSlot : Trial Slot := commit (asking .element slot)

def arrowPattern : Trial Pattern := do
  let first ← slot
  blanks
  exactly "->"
  blanks
  return [first, ← nextSlot]

def commaPattern : Trial Pattern := do
  let first ← slot
  return first :: (← many₁ do blanks; exactly ","; blanks; nextSlot)

def spacePattern : Trial Pattern := do
  let first ← slot
  return first :: (← many do blanks; slot)

def pattern : Trial Pattern := do
  blanks
  asking .sequence (alt arrowPattern (alt commaPattern spacePattern))

/-! ### Rules -/

def conditionalRule : Trial Rule := do
  keyword "if"
  let c ← commit condition
  blanks
  commit (asking .thenWord (keyword "then"))
  let p ← commit pattern
  let q ← optional do blanks; keyword "else"; commit pattern
  return .conditional c p q

def rule : Trial Rule := do
  blanks
  let r ← alt conditionalRule (do return .simple (← pattern))
  blanks
  return r

/-- Reads a text that is a rule from end to end. -/
def wholeRule (s : List Char) : Except Failure Rule :=
  match rule s with
  | .done r [] => .ok r
  | .done _ rest => .error ⟨rest, .unexpected⟩
  | .failed _ f => .error f

end Trial

end Lineup.RuleText
