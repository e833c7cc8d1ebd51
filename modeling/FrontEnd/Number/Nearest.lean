/-!
The binary floating-point number nearest to a ratio of two naturals. A number has 53 binary digits,
or fewer where its last digit would stand below `2^(-1074)`; a tie goes to the even neighbour.
-/

namespace FrontEnd.Number

/-- The natural nearest to a ratio, the even one of two that are equally near. -/
def roundRatio (num den : Nat) : Nat :=
  let below := num / den
  let twice := 2 * (num % den)
  if twice < den || (twice = den && below % 2 = 0) then below else below + 1

/-- The exponent `e` with `2^e ≤ num / den < 2^(e + 1)`, for ratios above zero. -/
def binaryExponent (num den : Nat) : Int :=
  let e : Int := num.log2 - den.log2
  if num <<< (-e).toNat < den <<< e.toNat then e - 1 else e

/-- The exponent of the last binary digit that is kept of a ratio. -/
def lastExponent (num den : Nat) : Int :=
  max (binaryExponent num den - 52) (-1074)

/-- The number nearest to a ratio, as its bits. They count all numbers from zero on: rounding up to
the next power of two carries into the exponent, and what is too large becomes infinite. -/
def nearestBits (num den : Nat) : Nat :=
  let q := lastExponent num den
  let mantissa := roundRatio (num <<< (-q).toNat) (den <<< q.toNat)
  min (mantissa + (q + 1074).toNat <<< 52) (2047 <<< 52)

def nearestFloat (num den : Nat) : Float :=
  Float.ofBits (UInt64.ofNat (nearestBits num den))

end FrontEnd.Number
