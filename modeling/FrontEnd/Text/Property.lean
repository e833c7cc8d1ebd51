import FrontEnd.Text.Alphabetic
import FrontEnd.Text.Numeric
import FrontEnd.Text.Extending
import FrontEnd.Text.Hidden

/-!
The character classes of the language: what separates words, what starts and continues a name, and
what can be shown as it is. Inside ASCII each class is decided without a table.
-/

namespace FrontEnd.Text

/-- The Unicode property White_Space. -/
def isBlank (c : Char) : Bool :=
  let n := c.toNat
  (0x9 ≤ n && n ≤ 0xd) || n = 0x20 || n = 0x85 || n = 0xa0 || n = 0x1680 ||
    (0x2000 ≤ n && n ≤ 0x200a) || n = 0x2028 || n = 0x2029 || n = 0x202f || n = 0x205f ||
    n = 0x3000

/-- A character that starts a name, the underscore apart. -/
def isLetter (c : Char) : Bool :=
  c.isAlpha || (0x80 ≤ c.toNat && alphabeticRanges.contains c)

/-- A character that continues a name, the underscore apart. -/
def isLetterOrDigit (c : Char) : Bool :=
  c.isDigit || isLetter c || (0x80 ≤ c.toNat && numericRanges.contains c)

/-- A character that has a visible form or is the space. -/
def isVisible (c : Char) : Bool :=
  let n := c.toNat
  if n < 0x80 then 0x20 ≤ n && n ≠ 0x7f else !hiddenRanges.contains c

/-- A character that is drawn onto the one before it. -/
def isExtending (c : Char) : Bool :=
  0x80 ≤ c.toNat && extendingRanges.contains c

end FrontEnd.Text
