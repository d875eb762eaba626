/-!
# Relations

The six relations in which two ordered things can be asked to stand. An unordered pair, which only
NaN makes, stands in none of them but `ne`.
-/

namespace Lineup

inductive Relation where
  | eq | ne | lt | gt | le | ge
deriving DecidableEq

namespace Relation

def all : List Relation := [.eq, .ne, .lt, .gt, .le, .ge]

def symbol : Relation → String
  | .eq => "="
  | .ne => "!="
  | .lt => "<"
  | .gt => ">"
  | .le => "<="
  | .ge => ">="

/-- The name of a relation where symbols cannot stand. -/
def label : Relation → String
  | .eq => "Eq"
  | .ne => "Neq"
  | .lt => "Lt"
  | .gt => "Gt"
  | .le => "Lte"
  | .ge => "Gte"

def ofLabel? (s : String) : Option Relation := all.find? (·.label = s)

def holds : Relation → Ordering → Bool
  | .eq, o => o.isEq
  | .ne, o => o.isNe
  | .lt, o => o.isLT
  | .gt, o => o.isGT
  | .le, o => o.isLE
  | .ge, o => o.isGE

/-- Whether a relation admits a pair that may be unordered. -/
def admits (r : Relation) : Option Ordering → Bool
  | some o => r.holds o
  | none => r = .ne

/-- Whether a relation asks only for equality or its opposite. -/
def isEquality (r : Relation) : Bool := r = .eq || r = .ne

/-- The relation in which the second of a pair stands to the first. -/
def converse : Relation → Relation
  | .lt => .gt
  | .gt => .lt
  | .le => .ge
  | .ge => .le
  | r => r

@[simp] theorem holds_converse (r : Relation) (o : Ordering) :
    r.converse.holds o = r.holds o.swap := by
  cases r <;> cases o <;> rfl

end Relation

end Lineup
