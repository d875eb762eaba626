import Lineup.Properties

/-!
# Items

The members of a sequence: a name together with properties.
-/

namespace Lineup

structure Item where
  name : String
  properties : Properties

namespace Item

def named (name : String) : Item := ⟨name, .empty⟩

/-- Puts a property on an item, in place of the one of that name. -/
def insert (i : Item) (k : String) (v : Value) : Item :=
  { i with properties := i.properties.insert k v }

/-- The value of a property, where null counts as none. -/
def get? (i : Item) (k : String) : Option Value := i.properties.present? k

/-- Whether something is stored under a name, be it null. -/
def hasProperty (i : Item) (k : String) : Bool := i.properties.contains k

/-- The form in which an item is shown to a reader. -/
def shown (i : Item) : String :=
  let entries := i.properties.entries.map fun (k, v) => k ++ "=" ++ v.shown
  i.name ++ "(" ++ ", ".intercalate entries ++ ")"

def alike (a b : Item) : Bool := a.name = b.name && a.properties.alike b.properties

instance : BEq Item := ⟨alike⟩

def digest (i : Item) : List UInt64 := textDigest i.name ++ i.properties.digest

instance : Hashable Item := ⟨fun i => hash i.digest⟩

end Item

end Lineup
