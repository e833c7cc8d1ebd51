/-!
The shortest decimal that reads back as a given binary floating-point number. A finite positive
number is `m · 2^q`; the reals that round to it form an interval around it, and the answer is the
point nearest to it on the coarsest decimal grid that has a point in this interval.
-/

namespace FrontEnd.Number

def powerOfTen (k : Nat) : Nat := Nat.pow 10 k

/-- The numbers that round to one floating-point number, over a common denominator: `low` and
`high` are the ends, `value` is the number itself. -/
structure Rounding where
  low : Nat
  value : Nat
  high : Nat
  denominator : Nat
  closed : Bool
deriving Repr

namespace Rounding

/-- The interval of `m · 2^q`. `narrow` says that the neighbour below is only half as far away as
the one above. A tie goes to the even mantissa, so the ends belong to an even `m`. -/
def ofBinary (m : Nat) (q : Int) (narrow : Bool) : Rounding :=
  let scale := 1 <<< (q - 2).toNat
  { low := (4 * m - (if narrow then 1 else 2)) * scale
    value := 4 * m * scale
    high := (4 * m + 2) * scale
    denominator := 1 <<< (2 - q).toNat
    closed := m % 2 = 0 }

/-- The same interval measured in units of `10^k`. -/
def inUnits (r : Rounding) (k : Int) : Rounding :=
  let up := powerOfTen (-k).toNat
  { r with low := r.low * up, value := r.value * up, high := r.high * up,
           denominator := r.denominator * powerOfTen k.toNat }

/-- Whether the integer `d` lies in the interval. -/
def covers (r : Rounding) (d : Nat) : Bool :=
  let n := d * r.denominator
  if r.closed then r.low ≤ n && n ≤ r.high else r.low < n && n < r.high

/-- The integer in the interval that is nearest to the number, the larger of two that are equally
near. Only the two neighbours of the number can be nearest. -/
def nearest? (r : Rounding) : Option Nat :=
  let below := r.value / r.denominator
  let above := below + 1
  match r.covers below, r.covers above with
  | true, true =>
    if 2 * r.value < (below + above) * r.denominator then some below else some above
  | true, false => some below
  | false, true => some above
  | false, false => none

/-- The exponent `p` with `10^p ≤ value < 10^(p + 1)`, for numbers above `10^(-400)`. -/
def magnitude (r : Rounding) : Int :=
  (Nat.toDigits 10 (r.value * powerOfTen 400 / r.denominator)).length - 401

/-- The first of the grids `10^k`, `10^(k-1)`, … that has a point in the interval. -/
def search (r : Rounding) : Nat → Int → Nat × Int
  | 0, k => (r.value / r.denominator, k)
  | tries + 1, k =>
    match (r.inUnits k).nearest? with
    | some d => (d, k)
    | none => search r tries (k - 1)

/-- The digits and the exponent of the last digit. Seventeen digits always suffice. -/
def shortest (r : Rounding) : Nat × Int :=
  r.search 17 r.magnitude

end Rounding

/-- Drops the zeros that end a list of digits, given last digit first, and counts them. -/
def dropZeros : List Char → Nat × List Char
  | '0' :: rest =>
    let (n, kept) := dropZeros rest
    (n + 1, kept)
  | digits => (0, digits)

/-- A decimal `0.d₁d₂… · 10^point` whose first and last digits are not zero. -/
structure Digits where
  digits : List Char
  point : Int
deriving Repr

def Rounding.digits (r : Rounding) : Digits :=
  let (d, k) := r.shortest
  let all := Nat.toDigits 10 d
  let (zeros, kept) := dropZeros all.reverse
  ⟨kept.reverse, k + zeros + kept.length⟩

end FrontEnd.Number
