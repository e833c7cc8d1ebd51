import FrontEnd.Number.Shortest
import FrontEnd.Number.Nearest

/-!
Texts of real numbers, both ways. Writing takes the shortest digits that read back; reading accepts
decimal texts with or without point and exponent and the words for the special values.
-/

namespace FrontEnd.Number

/-- How a real number is written out of its digits. -/
structure RealFormat where
  /-- Below this power of ten the number is written with an exponent. -/
  lowest : Int
  /-- From this power of ten on the number is written with an exponent. -/
  highest : Int

/-- Positional from `10^(-4)` up to `10^16`. -/
def realFormat : RealFormat := ⟨-4, 16⟩

def zeros (n : Nat) : List Char := List.replicate n '0'

/-- Digits around a point; at least one digit on either side. -/
def positional (d : Digits) : List Char :=
  if d.point ≤ 0 then ['0', '.'] ++ zeros (-d.point).toNat ++ d.digits
  else
    let n := d.point.toNat
    if n < d.digits.length then d.digits.take n ++ '.' :: d.digits.drop n
    else d.digits ++ zeros (n - d.digits.length) ++ ['.', '0']

/-- One digit before the point; no point where no digit follows, no sign on a positive exponent. -/
def exponential (d : Digits) : List Char :=
  let exponent := toString (d.point - 1)
  match d.digits with
  | [] => ['0']
  | [c] => c :: 'e' :: exponent.toList
  | c :: rest => c :: '.' :: rest ++ 'e' :: exponent.toList

/-- The first digit of the number stands for `10^(point - 1)`. -/
def RealFormat.write (f : RealFormat) (d : Digits) : List Char :=
  if f.lowest < d.point && d.point ≤ f.highest then positional d else exponential d

/-- The text of a real number, with its sign, also that of zero. -/
def realText (x : Float) : String :=
  let bits : Nat := x.toBits.toNat
  let negative : Bool := bits >>> 63 = 1
  let exponent : Nat := (bits >>> 52) % 2048
  let fraction : Nat := bits % (1 <<< 52)
  if exponent = 2047 then
    if fraction ≠ 0 then "NaN" else if negative then "-inf" else "inf"
  else
    let body :=
      if exponent = 0 && fraction = 0 then ['0', '.', '0']
      else
        let r :=
          if exponent = 0 then Rounding.ofBinary fraction (-1074) false
          else
            Rounding.ofBinary ((1 <<< 52) + fraction) ((exponent : Int) - 1075)
              (fraction = 0 && 1 < exponent)
        realFormat.write r.digits
    String.ofList (if negative then '-' :: body else body)

/-- The value of a run of decimal digits. -/
def naturalOf (digits : List Char) : Nat :=
  digits.foldl (fun n c => 10 * n + (c.toNat - '0'.toNat)) 0

/-- The floating-point number nearest to `digits · 10^exponent`. Numbers beyond the range of all
floating-point numbers are cut off before any power is computed. -/
def ofDecimal (digits : List Char) (exponent : Int) : Float :=
  let significant := digits.dropWhile (· = '0')
  let magnitude := exponent + significant.length
  if significant.isEmpty || magnitude < -400 then 0
  else if 400 < magnitude then 1 / 0
  else
    nearestFloat (naturalOf significant * powerOfTen exponent.toNat)
      (powerOfTen (-exponent).toNat)

/-- An exponent behind `e`: an optional sign and at least one digit. -/
def readExponent? (cs : List Char) : Option Int :=
  let (negative, digits) :=
    match cs with
    | '-' :: rest => (true, rest)
    | '+' :: rest => (false, rest)
    | _ => (false, cs)
  if digits.isEmpty || !digits.all Char.isDigit then none
  else some (if negative then -naturalOf digits else naturalOf digits)

/-- Digits with an optional point and an optional exponent; some digit stands beside the point. -/
def readUnsigned? (cs : List Char) : Option Float :=
  let whole := cs.takeWhile Char.isDigit
  let rest := cs.drop whole.length
  let (fraction, rest) :=
    match rest with
    | '.' :: more =>
      let fraction := more.takeWhile Char.isDigit
      (fraction, more.drop fraction.length)
    | _ => ([], rest)
  if whole.isEmpty && fraction.isEmpty then none
  else
    let exponent? :=
      match rest with
      | [] => some 0
      | c :: more => if c = 'e' || c = 'E' then readExponent? more else none
    exponent?.map fun e => ofDecimal (whole ++ fraction) (e - fraction.length)

/-- Reads a real number; the words for infinity and for no number are read in any case. -/
def readReal? (text : String) : Option Float :=
  let (negative, body) :=
    match text.toList with
    | '-' :: rest => (true, rest)
    | '+' :: rest => (false, rest)
    | cs => (false, cs)
  let word := String.ofList (body.map Char.toLower)
  let value? :=
    if word = "inf" || word = "infinity" then some (1 / 0)
    else if word = "nan" then some (0 / 0)
    else readUnsigned? body
  value?.map fun x => if negative then -x else x

end FrontEnd.Number
