/-!
Sets of characters given by ranges of code points.
-/

namespace FrontEnd.Text

/-- Closed ranges of code points. -/
abbrev Ranges := Array (Nat × Nat)

namespace Ranges

def contains (ranges : Ranges) (c : Char) : Bool :=
  ranges.any fun (first, last) => first ≤ c.toNat && c.toNat ≤ last

end Ranges

end FrontEnd.Text
