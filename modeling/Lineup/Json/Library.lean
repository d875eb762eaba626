import Lineup.Json.Tree

/-!
# Libraries for JSON

What texts of JSON look like is left to a library, which writes and reads trees. What is encoded
and decoded here relies on no more than the laws of a library (`Library.Lawful`): those of plain
values, of strings and of floats, and that the text of an array or an object is made up of the
texts that are in it.
-/

namespace Lineup.Json

structure Library where
  /-- The text that is written for a tree. -/
  text : Json → String
  /-- The tree that a text is read as, if it is one value from end to end. -/
  parse? : String → Option Json
  /-- How many brackets may be open within each other. -/
  maxDepth : Nat

namespace Library

variable (L : Library)

/-- Says that the text of `j` is read as `k`. -/
def Reads (j k : Json) : Prop := L.parse? (L.text j) = some k

/-- The laws that the users of a library rely on. -/
structure Lawful : Prop where
  null : L.Reads .null .null
  bool (b : Bool) : L.Reads (.bool b) (.bool b)
  /-- All integers of sixty-four bits are written in full. -/
  int (n : Int64) : L.Reads (.int n) (.int n)
  /-- A finite float is written with a point or an exponent, which tell it from an integer, and
  reads back as itself. -/
  float (x : Binary64) : x.isFinite → L.Reads (.float x) (.float x)
  /-- JSON has no number for a float that is not finite, so null is written for it. -/
  text_float (x : Binary64) : x.isFinite = false → L.text (.float x) = L.text .null
  /-- Strings are escaped and unescaped faithfully. -/
  string (s : String) : L.Reads (ofString s) (ofString s)
  /-- Unless it is nested too deep, an array is read as that of what its elements are read as. -/
  array (l : List Json) (f : Json → Json) : depth (.array l) ≤ L.maxDepth →
    (∀ j ∈ l, L.Reads j (f j)) → L.Reads (.array l) (.array (l.map f))
  /-- Unless it is nested too deep, an object is read as that of what its members are read as, with
  their names and in their order. -/
  object (l : List (String × Json)) (f : Json → Json) : depth (ofFields l) ≤ L.maxDepth →
    (∀ m ∈ l, L.Reads m.2 (f m.2)) →
      L.Reads (ofFields l) (ofFields (l.map fun (k, j) => (k, f j)))
  /-- Two brackets may be open at once, as many as an item takes. -/
  two_le_maxDepth : 2 ≤ L.maxDepth

/-- Decodes a text from end to end. -/
def decode? {α : Type} (ofJson? : Nat → Json → Option α) (text : String) : Option α :=
  (L.parse? text).bind (ofJson? L.maxDepth)

end Library

end Lineup.Json
