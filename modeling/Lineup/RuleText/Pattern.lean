import Lineup.RuleText.Condition

/-!
# Patterns

The slots of a pattern are separated by commas or by blanks, or there are just two of them with an
arrow between. What follows the first slot decides which; the forms do not mix, and all of them
give the same list of slots.
-/

namespace Lineup.RuleText

open Text (skipBlanks skipBlanks_suffix Remains)

/-- Reads what follows the name of a slot: a condition in parentheses or else a position, if there
is one. -/
def slotTail (name : String) (s : List Char) : Reading Slot :=
  match skipBlanks s with
  | '(' :: t =>
    match condition t with
    | .error e => .error e
    | .ok (c, r) =>
      match skipBlanks r.1 with
      | ')' :: r' => .ok (⟨name, some c, none⟩, r')
      | r' => .error ⟨r', .expected .closing⟩
  | _ =>
    match position? s with
    | .error e => .error e
    | .ok (p, r) => .ok (⟨name, none, p⟩, r)

/-- Reads a slot, where `e` is asked for. -/
def slot (e : Expectation) (s : List Char) : Reading Slot :=
  match name? s with
  | none => .error ⟨s, .expected e⟩
  | some (name, r) => slotTail name r

inductive Separator where
  | comma | blanks
deriving DecidableEq

/-- Where the next slot has to start, if there is another one. -/
def Separator.next? : Separator → List Char → Option (List Char)
  | comma, s =>
    match skipBlanks s with
    | ',' :: r => some (skipBlanks r)
    | _ => none
  | blanks, s => if (name? (skipBlanks s)).isSome then some (skipBlanks s) else none

theorem slotTail_suffix {name : String} {s r : List Char} {v : Slot}
    (h : slotTail name s = .ok (v, r)) : r <:+ s := by
  unfold slotTail at h
  split at h
  · rename_i t ht
    split at h
    · cases h
    · rename_i q _
      split at h
      · rename_i hq
        cases h
        refine ((hq ▸ List.suffix_cons ..).trans (skipBlanks_suffix q.1)).trans ?_
        exact q.2.1.trans ((List.suffix_cons ..).trans (ht ▸ skipBlanks_suffix s))
      · cases h
  · split at h
    · cases h
    · rename_i hp
      cases h
      exact position?_suffix hp

theorem remains_slot {e : Expectation} {s r : List Char} {v : Slot} (h : slot e s = .ok (v, r)) :
    Remains r s := by
  unfold slot at h
  split at h
  · cases h
  · rename_i hn
    exact .before (slotTail_suffix h) (remains_name? hn)

theorem Separator.next?_suffix {sep : Separator} {s r : List Char} (h : sep.next? s = some r) :
    r <:+ s := by
  cases sep with
  | comma =>
    simp only [next?] at h
    split at h
    · rename_i t ht
      cases h
      exact (skipBlanks_suffix t).trans ((List.suffix_cons ..).trans (ht ▸ skipBlanks_suffix s))
    · cases h
  | blanks =>
    simp only [next?] at h
    split at h
    · cases h; exact skipBlanks_suffix s
    · cases h

/-- Reads the slots that follow, each after a separator. -/
def moreSlots (sep : Separator) (s : List Char) : Reading (List Slot) :=
  match hn : sep.next? s with
  | none => .ok ([], s)
  | some t =>
    match h : slot .element t with
    | .error e => .error e
    | .ok (v, r) =>
      have : r.length < s.length := ((remains_slot h).after (Separator.next?_suffix hn)).2
      match moreSlots sep r with
      | .error e => .error e
      | .ok (vs, r') => .ok (v :: vs, r')
termination_by s.length

def pattern (s : List Char) : Reading Pattern :=
  match slot .sequence (skipBlanks s) with
  | .error e => .error e
  | .ok (first, r) =>
    match skipBlanks r with
    | '-' :: '>' :: t =>
      match slot .element (skipBlanks t) with
      | .error e => .error e
      | .ok (second, r') => .ok ([first, second], r')
    | t =>
      let sep := if t.head? = some ',' then Separator.comma else .blanks
      match moreSlots sep r with
      | .error e => .error e
      | .ok (vs, r') => .ok (first :: vs, r')

end Lineup.RuleText
