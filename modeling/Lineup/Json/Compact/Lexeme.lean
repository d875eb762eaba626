import Lineup.Text.Rest

/-!
# Strings and numbers of JSON

The lexemes of the compact library. A number is read as what is written of it. A string is read as
a list of units, characters and halves of surrogate pairs, from which its text is put together.
-/

namespace Lineup.Json.Compact

open Text (Remains remains_dropWhile)

/-! ### Numbers -/

/-- Reads digits, of which there has to be one. -/
def digits? (s : List Char) : Option (List Char × List Char) :=
  if s.takeWhile Char.isDigit = [] then none
  else some (s.takeWhile Char.isDigit, s.dropWhile Char.isDigit)

/-- Reads the digits before the point: a zero, or digits that do not start with one. -/
def whole? : List Char → Option (List Char × List Char)
  | '0' :: s => some (['0'], s)
  | s => digits? s

def fraction? : List Char → Option (List Char × List Char)
  | '.' :: s => (digits? s).map fun (d, r) => ('.' :: d, r)
  | s => some ([], s)

def exponentSign : List Char → List Char × List Char
  | '+' :: s => (['+'], s)
  | '-' :: s => (['-'], s)
  | s => ([], s)

def exponent? : List Char → Option (List Char × List Char)
  | c :: s =>
    if c = 'e' ∨ c = 'E' then
      (digits? (exponentSign s).2).map fun (d, r) => (c :: (exponentSign s).1 ++ d, r)
    else some ([], c :: s)
  | [] => some ([], [])

def minus : List Char → List Char × List Char
  | '-' :: s => (['-'], s)
  | s => ([], s)

/-- Reads a number. -/
def number? (s : List Char) : Option (List Char × List Char) :=
  match whole? (minus s).2 with
  | none => none
  | some (whole, r) =>
    match fraction? r with
    | none => none
    | some (fraction, r') =>
      match exponent? r' with
      | none => none
      | some (exponent, r'') => some ((minus s).1 ++ whole ++ fraction ++ exponent, r'')

theorem remains_digits? {s d r : List Char} (h : digits? s = some (d, r)) : Remains r s := by
  unfold digits? at h
  split at h
  · cases h
  · rename_i hd
    cases h
    exact remains_dropWhile hd

theorem remains_whole? {s d r : List Char} (h : whole? s = some (d, r)) : Remains r s := by
  unfold whole? at h
  split at h
  · cases h
    exact .of_cons _ (List.suffix_refl _)
  · exact remains_digits? h

theorem fraction?_suffix {s d r : List Char} (h : fraction? s = some (d, r)) : r <:+ s := by
  unfold fraction? at h
  split at h
  · obtain ⟨_, hd, he⟩ := Option.map_eq_some_iff.1 h
    cases he
    exact (remains_digits? hd).1.trans (List.suffix_cons ..)
  · cases h
    exact List.suffix_refl _

theorem exponentSign_suffix (s : List Char) : (exponentSign s).2 <:+ s := by
  unfold exponentSign
  split <;> simp

theorem exponent?_suffix {s d r : List Char} (h : exponent? s = some (d, r)) : r <:+ s := by
  unfold exponent? at h
  split at h
  · split at h
    · obtain ⟨_, hd, he⟩ := Option.map_eq_some_iff.1 h
      cases he
      exact ((remains_digits? hd).1.trans (exponentSign_suffix _)).trans (List.suffix_cons ..)
    · cases h
      exact List.suffix_refl _
  · cases h
    exact List.suffix_refl _

theorem minus_suffix (s : List Char) : (minus s).2 <:+ s := by
  unfold minus
  split <;> simp

theorem remains_number? {s d r : List Char} (h : number? s = some (d, r)) : Remains r s := by
  unfold number? at h
  split at h
  · cases h
  · rename_i hw
    split at h
    · cases h
    · rename_i hf
      split at h
      · cases h
      · rename_i he
        cases h
        exact .before ((exponent?_suffix he).trans (fraction?_suffix hf))
          ((remains_whole? hw).after (minus_suffix s))

/-! ### Strings -/

/-- What one character or one escape of a string spells. -/
inductive StringUnit where
  | char (c : Char)
  | high (n : Nat)
  | low (n : Nat)
deriving DecidableEq

def hexValue? (c : Char) : Option Nat :=
  if c.isDigit then some (c.toNat - '0'.toNat)
  else if 'a' ≤ c ∧ c ≤ 'f' then some (c.toNat - 'a'.toNat + 10)
  else if 'A' ≤ c ∧ c ≤ 'F' then some (c.toNat - 'A'.toNat + 10)
  else none

/-- The unit with a number of four hexadecimal digits. -/
def unitOfHex? (a b c d : Char) : Option StringUnit := do
  let n := (((← hexValue? a) * 16 + (← hexValue? b)) * 16 + (← hexValue? c)) * 16 + (← hexValue? d)
  if 0xd800 ≤ n ∧ n < 0xdc00 then return .high n
  else if 0xdc00 ≤ n ∧ n < 0xe000 then return .low n
  else return .char (Char.ofNat n)

/-- The character that a letter behind a backslash stands for. -/
def escape? : Char → Option Char
  | '"' => some '"'
  | '\\' => some '\\'
  | '/' => some '/'
  | 'b' => some '\x08'
  | 'f' => some '\x0c'
  | 'n' => some '\n'
  | 'r' => some '\r'
  | 't' => some '\t'
  | _ => none

/-- Reads the units of a string, up to the closing quote. -/
def units? : List Char → Option (List StringUnit × List Char)
  | '"' :: s => some ([], s)
  | '\\' :: 'u' :: a :: b :: c :: d :: s =>
    match unitOfHex? a b c d, units? s with
    | some u, some (us, r) => some (u :: us, r)
    | _, _ => none
  | '\\' :: e :: s =>
    match escape? e, units? s with
    | some c, some (us, r) => some (.char c :: us, r)
    | _, _ => none
  | c :: s =>
    if c.toNat < 0x20 ∨ c = '\\' then none
    else
      match units? s with
      | some (us, r) => some (.char c :: us, r)
      | none => none
  | [] => none

/-- The characters that units spell, where a high and a low half make one character and neither may
stand alone. -/
def charsOfUnits? : List StringUnit → Option (List Char)
  | [] => some []
  | .char c :: us => (charsOfUnits? us).map (c :: ·)
  | .high n :: .low m :: us =>
    (charsOfUnits? us).map (Char.ofNat (0x10000 + (n - 0xd800) * 0x400 + (m - 0xdc00)) :: ·)
  | _ => none

/-- Reads a string whose opening quote has been read. -/
def stringTail? (s : List Char) : Option (Option String × List Char) :=
  match units? s with
  | none => none
  | some (us, r) => some ((charsOfUnits? us).map String.ofList, r)

theorem remains_units? {s r : List Char} {us : List StringUnit} (h : units? s = some (us, r)) :
    Remains r s := by
  fun_induction units? s generalizing us r with
  | case1 s =>
    cases h
    exact .of_cons _ (List.suffix_refl _)
  | case2 a b c d s u us' r' hs _ ih =>
    cases h
    exact (ih hs).after (by simp [List.suffix_cons_iff])
  | case4 e s _ c us' r' hs _ ih =>
    cases h
    exact (ih hs).after (by simp [List.suffix_cons_iff])
  | case7 c s _ _ _ _ us' r' hs ih =>
    cases h
    exact (ih hs).after (List.suffix_cons ..)
  | _ => cases h

theorem remains_stringTail? {s r : List Char} {t : Option String}
    (h : stringTail? s = some (t, r)) : Remains r s := by
  unfold stringTail? at h
  split at h
  · cases h
  · rename_i hu
    cases h
    exact remains_units? hu

end Lineup.Json.Compact
