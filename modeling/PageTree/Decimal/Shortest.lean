/-!
The shortest decimal that reads back as a given binary fraction. A positive double is `m * 2 ^ q`;
the reals that round to it form an interval around it, whose ends belong to it exactly when `m` is
even. For one digit, two digits and so on, the two neighbours of the value on that decimal grid are
tried in exact arithmetic, and the first grid with a neighbour inside the interval gives the digits.
-/

namespace PageTree.Decimal

/-- The number `digits * 10 ^ exponent`. -/
structure Scaled where
  digits : Nat
  exponent : Int
  deriving DecidableEq

/-- The value `m * 2 ^ q` of a positive finite double and whether the gap below it is half as wide
as the gap above. -/
structure Binary where
  m : Nat
  q : Int
  narrowBelow : Bool
  deriving DecidableEq

def Binary.ofBits (bits : UInt64) : Binary :=
  let raw := bits.toNat % 0x8000000000000000
  let e := raw / 0x10000000000000
  let f := raw % 0x10000000000000
  if e = 0 then ⟨f, -1074, false⟩ else ⟨0x10000000000000 + f, Int.ofNat e - 1075, f = 0 && 1 < e⟩

/-- A quarter unit of the last binary place, as a fraction of the grid `10 ^ g`. -/
def quarter (q g : Int) : Nat × Nat :=
  (Nat.pow 2 (q - 2).toNat * Nat.pow 10 (-g).toNat, Nat.pow 2 (2 - q).toNat * Nat.pow 10 g.toNat)

/-- The point of the grid `10 ^ g` nearest to the value, if it rounds to the value. -/
def onGrid? (b : Binary) (g : Int) : Option Nat :=
  let (p, u) := quarter b.q g
  let value := 4 * b.m * p
  let low := (4 * b.m - if b.narrowBelow then 1 else 2) * p
  let high := (4 * b.m + 2) * p
  let inside (c : Nat) : Bool :=
    if b.m % 2 = 0 then low ≤ c * u && c * u ≤ high else low < c * u && c * u < high
  let below := value / u
  let above := below + 1
  match inside below, inside above with
  | false, false => none
  | true, false => some below
  | false, true => some above
  | true, true => if value - below * u ≤ above * u - value then some below else some above

def reaches (b : Binary) (k : Int) : Bool :=
  let (p, u) := quarter b.q k
  u ≤ 4 * b.m * p

def climb (b : Binary) : Nat → Int → Int
  | 0, k => k
  | n + 1, k => if reaches b k then climb b n (k + 1) else k

def magnitude (b : Binary) : Int :=
  climb b 4 ((((Nat.log2 b.m : Int) + b.q) * 30103).fdiv 100000 - 1)

def firstGrid (b : Binary) (k : Int) : Nat → Int → Scaled
  | 0, _ => ⟨b.m, b.q⟩
  | n + 1, used =>
    match onGrid? b (k - used) with
    | some digits => ⟨digits, k - used⟩
    | none => firstGrid b k n (used + 1)

def dropZeros : Nat → Scaled → Scaled
  | 0, s => s
  | n + 1, s =>
    if s.digits ≠ 0 ∧ s.digits % 10 = 0 then dropZeros n ⟨s.digits / 10, s.exponent + 1⟩ else s

def shortest (b : Binary) : Scaled :=
  dropZeros 20 (firstGrid b (magnitude b) 18 1)

end PageTree.Decimal
