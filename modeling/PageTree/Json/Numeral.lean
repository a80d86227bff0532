import PageTree.Json.Basic
import PageTree.Decimal.Shortest
import PageTree.Decimal.Reading

/-!
Numbers as they stand in a JSON text, and the values they denote. A numeral without fraction and
exponent that lies in the range of a signed or an unsigned 64-bit integer is an integer; every
other numeral, and minus zero, is a double. The written form of a double has the fewest digits that
read back and always shows a point or an exponent.
-/

namespace PageTree.Json

/-- An empty `fraction` stands for a numeral without a point. The flag of an exponent tells that it
is negative. -/
structure Numeral where
  negative : Bool
  whole : List Char
  fraction : List Char
  exponent : Option (Bool × List Char)
  deriving DecidableEq

namespace Numeral

def double? (n : Numeral) : Option Json :=
  (Decimal.read n.negative n.whole n.fraction n.exponent).map ofFloat

def magnitude (n : Numeral) : Nat := Nat.ofDigitChars 10 n.whole 0

def isWhole (n : Numeral) : Bool := n.fraction.isEmpty && n.exponent.isNone

def integer? (n : Numeral) : Option Int :=
  if n.isWhole then
    if n.negative then
      if n.magnitude ≠ 0 ∧ n.magnitude ≤ i64Bound then some (-(n.magnitude : Int)) else none
    else if n.magnitude < u64Bound then some n.magnitude else none
  else none

def value? (n : Numeral) : Option Json :=
  match n.integer? with
  | some i => some (.int i)
  | none => n.double?

def asU64? (n : Numeral) : Option Nat :=
  match n.integer? with
  | some i => if 0 ≤ i then some i.toNat else none
  | none => none

end Numeral

def zeros (n : Nat) : List Char := List.replicate n '0'

/-- Magnitudes from 10⁻⁵ up to 10¹⁶ are written without an exponent. -/
def placeDigits (d : Decimal.Scaled) : List Char :=
  let digits := Nat.toDigits 10 d.digits
  let point : Int := digits.length + d.exponent
  if 0 ≤ d.exponent ∧ point ≤ 16 then digits ++ zeros d.exponent.toNat ++ ".0".toList
  else if 0 < point ∧ point ≤ 16 then
    digits.take point.toNat ++ '.' :: digits.drop point.toNat
  else if -5 < point ∧ point ≤ 0 then "0.".toList ++ zeros (-point).toNat ++ digits
  else
    let power := point - 1
    let sign := if power < 0 then '-' else '+'
    let lead := digits.take 1 ++ (if digits.length = 1 then [] else '.' :: digits.drop 1)
    lead ++ 'e' :: sign :: Nat.toDigits 10 power.natAbs

def doubleText (bits : UInt64) : List Char :=
  let raw := bits.toNat % 0x8000000000000000
  let text :=
    if raw = 0 then "0.0".toList
    else placeDigits (Decimal.shortest (Decimal.Binary.ofBits bits))
  if bits.toNat < 0x8000000000000000 then text else '-' :: text

def intText (n : Int) : List Char :=
  if n < 0 then '-' :: Nat.toDigits 10 n.natAbs else Nat.toDigits 10 n.natAbs

end PageTree.Json
