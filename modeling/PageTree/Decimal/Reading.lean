/-!
Reading a decimal as a double in machine arithmetic. The digits are collected in a 64-bit
significand; digits that no longer fit are dropped, those before the point counting as powers of
ten. The significand is then scaled by a power of ten in one multiplication or division, which may
differ from the nearest double in the last place. A result that is too large has no value.

Where the nearest double is asked for, a decimal whose first digit stands far outside the range of
doubles is infinite or zero.
-/

namespace PageTree.Decimal

def significandBound : Nat := 0x10000000000000000

def collect (acc : Nat) : List Char → Nat × List Char
  | [] => (acc, [])
  | c :: rest =>
    let next := acc * 10 + (c.toNat - '0'.toNat)
    if next < significandBound then collect next rest else (acc, c :: rest)

def powerOfTen (n : Nat) : Float := Float.ofScientific 1 false n

def largestPower : Nat := 308

def scale : Nat → Float → Int → Option Float
  | 0, x, _ => some x
  | n + 1, x, e =>
    if e.natAbs ≤ largestPower then
      if 0 ≤ e then
        let y := x * powerOfTen e.natAbs
        if y.isInf then none else some y
      else some (x / powerOfTen e.natAbs)
    else if x == 0 then some x
    else if 0 ≤ e then none
    else scale n (x / powerOfTen largestPower) (e + largestPower)

def exponentBound : Nat := 0x80000000

/-- The double with the given digits before the point, after the point and in the exponent. -/
def read (negative : Bool) (whole fraction : List Char) (exponent : Option (Bool × List Char)) :
    Option Float :=
  let (wholePart, spilled) := collect 0 whole
  let (significand, left) := collect wholePart fraction
  let shift : Int := spilled.length - (fraction.length - left.length : Nat)
  let magnitude : Option Float :=
    match exponent with
    | none => scale 4 significand.toUInt64.toFloat shift
    | some (down, digits) =>
      let size := Nat.ofDigitChars 10 digits 0
      if exponentBound ≤ size then
        if significand ≠ 0 ∧ ¬ down then none else some 0
      else
        scale 4 significand.toUInt64.toFloat (if down then shift - size else shift + size)
  magnitude.map fun x => if negative then -x else x

/-- No double but infinity reaches ten to this power, and none but zero the inverse of it. -/
def farPower : Nat := 400

def nearestMagnitude (digits : List Char) (power : Int) : Float :=
  let digits := digits.dropWhile (· = '0')
  let top : Int := digits.length + power
  if digits.isEmpty || top < -farPower then 0
  else if farPower < top then 1.0 / 0.0
  else Float.ofScientific (Nat.ofDigitChars 10 digits 0) (power < 0) power.natAbs

/-- The double nearest to a decimal with the given digits before the point, after it and in the
exponent, whose flag tells that it is negative. -/
def nearest (negative : Bool) (whole fraction : List Char) (exponent : Option (Bool × List Char)) :
    Float :=
  let power : Int := match exponent with
    | none => 0
    | some (down, digits) =>
      let size : Int := Nat.ofDigitChars 10 digits 0
      if down then -size else size
  let x := nearestMagnitude (whole ++ fraction) (power - fraction.length)
  if negative then -x else x

end PageTree.Decimal
