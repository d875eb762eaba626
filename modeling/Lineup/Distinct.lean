import Std.Data.HashSet
import Lineup.Item

/-!
# Counting without repetition
-/

namespace Lineup

/-- How many members of a list are not alike to each other. -/
def distinctCount [BEq α] [Hashable α] (l : List α) : Nat := (Std.HashSet.ofList l).size

end Lineup
