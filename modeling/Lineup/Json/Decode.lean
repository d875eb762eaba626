import Lineup.Item
import Lineup.Json.Fields
import Lineup.Rule.Checked

/-!
# Decoding

The values, items, rules and options that trees stand for. A decoder is given how many brackets
may still be opened; each one that opens an array or an object of its own passes on one less.
-/

namespace Lineup

open Json

/-- The value of the first kind that a tree has the shape of. -/
def Value.ofJson? (j : Json) : Option Value :=
  ((asNull? j).map fun _ => Value.null).or <| ((asBool? j).map Value.bool).or <|
    ((asInt? j).map Value.int).or <| ((asFloat? j).map Value.float).or <|
      (Json.asString? j).map Value.string

def Properties.ofJson? (depth : Nat) : Json → Option Properties
  | .object l => do
    guard (0 < depth)
    let l ← textMembers? l
    return .ofList (← l.mapM fun (k, j) => (Value.ofJson? j).map (k, ·))
  | _ => none

def Item.ofJson? : Nat → Json → Option Item
  | 0, _ => none
  | depth + 1, j => do
    let [some name, some properties] ← fields? ["name", "properties"] j | none
    return ⟨← asString? name, ← Properties.ofJson? depth properties⟩

def Position.ofJson? : Nat → Json → Option Position
  | 0, _ => none
  | _ + 1, j =>
    match variant? j with
    | some ("Absolute", n) => (asInt? n).map .absolute
    | some ("Relative", n) => (asInt? n).map .relative
    | _ => none

def Relation.ofJson? (depth : Nat) (j : Json) : Option Relation := (unit? depth j).bind ofLabel?

def Connective.ofJson? (depth : Nat) (j : Json) : Option Connective :=
  match unit? depth j with
  | some "And" => some .and
  | some "Or" => some .or
  | _ => none

def BoolOrdering.ofJson? (depth : Nat) (j : Json) : Option BoolOrdering :=
  match unit? depth j with
  | some "Reject" => some .reject
  | some "FalseBeforeTrue" => some .falseBeforeTrue
  | _ => none

def Options.ofJson? : Nat → Json → Option Options
  | 0, _ => none
  | depth + 1, j => do
    let [some o] ← fields? ["bool_ordering"] j | none
    return ⟨← BoolOrdering.ofJson? depth o⟩

def Term.ofJson? : Nat → Json → Option Term
  | 0, _ => none
  | depth + 1, j => do
    let [some name, position] ← fields? ["identifier", "position"] j | none
    return ⟨← asString? name, ← optional? (Position.ofJson? depth) position⟩

def Operand.ofJson? : Nat → Json → Option Operand
  | 0, _ => none
  | depth + 1, j =>
    match variant? j with
    | some ("Numeric", x) => (asFloat? x).map .number
    | some ("Boolean", b) => (asBool? b).map .boolean
    | some ("Str", s) => (asString? s).map .string
    | some ("PropertyRef", t) => (Term.ofJson? depth t).map .term
    | _ => none

def Comparison.ofJson? : Nat → Json → Option Comparison
  | 0, _ => none
  | depth + 1, j => do
    let [some name, position, some relation, some operand] ←
      fields? ["identifier", "position", "operator", "value"] j | none
    return ⟨⟨← asString? name, ← optional? (Position.ofJson? depth) position⟩,
      ← Relation.ofJson? depth relation, ← Operand.ofJson? depth operand⟩

def Condition.ofJson? : Nat → Json → Option Condition
  | 0, _ => none
  | depth + 1, j =>
    match variant? j with
    | some ("Leaf", c) => (Comparison.ofJson? depth c).map .comparison
    | some ("Group", c) => (Condition.ofJson? depth c).map .group
    | some ("Binary", c) =>
      match depth with
      | 0 => none
      | depth + 1 => do
        let [some left, some op, some right] ← fields? ["left", "op", "right"] c | none
        return .join (← Connective.ofJson? depth op) (← Condition.ofJson? depth left)
          (← Condition.ofJson? depth right)
    | _ => none

def Slot.ofJson? : Nat → Json → Option Slot
  | 0, _ => none
  | depth + 1, j => do
    let [some name, constraint, position] ←
      fields? ["identifier", "constraint", "position"] j | none
    return ⟨← asString? name, ← optional? (Condition.ofJson? depth) constraint,
      ← optional? (Position.ofJson? depth) position⟩

def Pattern.ofJson? : Nat → Json → Option Pattern
  | depth + 2, j => do
    let [some (.array slots)] ← fields? ["elements"] j | none
    slots.mapM (Slot.ofJson? depth)
  | _, _ => none

def Rule.ofJson? : Nat → Json → Option Rule
  | depth + 2, j =>
    match variant? j with
    | some ("Simple", p) => (Pattern.ofJson? (depth + 1) p).map .simple
    | some ("Conditional", r) => do
      let [some condition, some ifTrue, ifFalse] ←
        fields? ["condition", "then_sequence", "else_sequence"] r | none
      return .conditional (← Condition.ofJson? depth condition) (← Pattern.ofJson? depth ifTrue)
        (← optional? (Pattern.ofJson? depth) ifFalse)
    | _ => none
  | _, _ => none

end Lineup
