/-!
# Shortest decimals

A positive binary number stands for every real that rounds to it. Among the decimals in that
interval the shortest ones lie on the coarsest grid of multiples of a power of ten that meets the
interval, and the nearest of those is the one to write.

## Main definitions

* `Decimal.Binary` — a significand and a power of two, with the halves of the gaps around it.
* `Decimal.Scaled` — a whole number of units of a power of ten.
* `Decimal.shortest` — the shortest decimal that reads back as the given number.

## Design

All tests are comparisons of natural numbers: a number is compared with a grid point after both
are multiplied by the powers of two and ten that make them whole. If a point of a grid lies in the
interval, so does one of the two grid points next to the number, hence only these are tested.
-/

set_option autoImplicit false

namespace CopyTrial.Decimal

/-- The number `significand * 2 ^ exponent`, together with the reals that round to it. -/
structure Binary where
  significand : Nat
  exponent : Int
  /-- The number below is half as far away as the number above. -/
  narrowBelow : Bool

/-- The number of different fractions of a double, which has 52 bits for them. -/
def fractionCount : Nat := 0x10000000000000

/-- The magnitude that the bits of a finite double encode. -/
def Binary.ofBits (bits : UInt64) : Binary :=
  let fraction : Nat := bits.toNat % fractionCount
  let biased : Nat := bits.toNat / fractionCount % 0x800
  if biased = 0 then ⟨fraction, -1074, false⟩
  else ⟨fractionCount + fraction, (biased : Int) - 1075, fraction == 0 && biased > 1⟩

/-- The number `units * 10 ^ exponent`. -/
structure Scaled where
  units : Nat
  exponent : Int
  deriving DecidableEq

/-- `x * 2 ^ q` as a multiple of `10 ^ p`: the quotient of the two results. -/
def ratio (x : Nat) (q p : Int) : Nat × Nat :=
  (x * Nat.pow 2 q.toNat * Nat.pow 10 (-p).toNat, Nat.pow 2 (-q).toNat * Nat.pow 10 p.toNat)

/-- The multiple of `10 ^ p` that is nearest to the number among those that round to it. The
interval includes its ends when the significand is even; a tie goes to the even multiple. -/
def onGrid (b : Binary) (p : Int) : Option Nat :=
  let q := b.exponent - 2
  let (centre, unit) := ratio (4 * b.significand) q p
  let low := (ratio (4 * b.significand - if b.narrowBelow then 1 else 2) q p).1
  let high := (ratio (4 * b.significand + 2) q p).1
  let inside (d : Nat) : Bool :=
    d != 0 &&
      if b.significand % 2 = 0 then low ≤ d * unit && d * unit ≤ high
      else low < d * unit && d * unit < high
  let below := centre / unit
  match inside below, inside (below + 1) with
  | true, false => some below
  | false, true => some (below + 1)
  | false, false => none
  | true, true =>
    let twice := 2 * (centre - below * unit)
    if twice < unit || (twice == unit && below % 2 == 0) then some below else some (below + 1)

/-- Tries the grids of `10 ^ p`, `10 ^ (p - 1)`, … in this order. -/
def search (b : Binary) : Nat → Int → Option Scaled
  | 0, _ => none
  | tries + 1, p =>
    match onGrid b p with
    | some units => some ⟨units, p⟩
    | none => search b tries (p - 1)

/-- The shortest decimal that reads back as the number: no double exceeds `10 ^ 309`, and
seventeen digits are always enough, so the grids from there to `10 ^ (-342)` suffice. -/
def shortest (b : Binary) : Scaled :=
  (search b 652 309).getD ⟨0, 0⟩

end CopyTrial.Decimal
