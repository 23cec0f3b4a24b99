/-!
# Sets of Characters by Their Borders

A set of code points is written as the increasing list of its **borders**: the first point
inside, the first point after that run, and so on. A point lies in the set when an odd number
of borders is at or below it.

## Main definitions

* `Borders` is such a list, `Borders.mem` the membership test.
-/

namespace StackScript.Text

/-- The borders of a set of code points, in increasing order. -/
abbrev Borders := List Nat

namespace Borders

/-- Whether an odd number of borders is at or below the point. -/
def mem (point : Nat) : Borders → Bool
  | [] => false
  | border :: rest => if point < border then false else !mem point rest

end Borders

end StackScript.Text
