namespace Tablewright

/-- A set of characters, given by the code points at which membership changes, in increasing
order and beginning outside the set. -/
structure CharClass where
  changes : Array Nat

namespace CharClass

/-- A character is in the set when an odd number of changes lies at or below it. -/
def contains (k : CharClass) (c : Char) : Bool :=
  k.changes.countP (fun n => decide (n ≤ c.toNat)) % 2 == 1

end CharClass

end Tablewright
