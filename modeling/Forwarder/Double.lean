/-
**Doubles.** The finite binary numbers with a mantissa of 53 bits, which decimals are rounded to.

* `Double.ofDecimal?` — the nearest double; of two that are equally near, the one with the even
  mantissa. A number that is out of reach has none.
* `Double.shortest` — the decimal with the fewest digits that is rounded to a double; of several the
  nearest one.
* `Double.truncated`, `Double.render` — a double as an integer and as a text.
-/

import Forwarder.Decimal

namespace Forwarder

/-- The number `± mantissa · 2 ^ exponent`. -/
structure Double where
  negative : Bool
  mantissa : Nat
  exponent : Int
deriving DecidableEq, Repr

namespace Double

/-- The first mantissa that takes 53 bits. -/
def fullMantissa : Nat :=
  Nat.pow 2 52

/-- The exponent of the smallest numbers. -/
def leastExponent : Int :=
  -1074

/-- The number is zero. -/
def isZero (x : Double) : Bool :=
  x.mantissa == 0

/-! ### Rounding decimals -/

/-- The quotient of two numbers, rounded to the nearest one; a half goes to the even neighbour. -/
def nearest (num den : Nat) : Nat :=
  let q := num / den
  let r := num % den
  if 2 * r > den ∨ (2 * r = den ∧ q % 2 = 1) then q + 1 else q

/-- The two parts of the quotient of a fraction and a power of two. -/
def scaled (num den : Nat) (exponent : Int) : Nat × Nat :=
  (num * Nat.pow 2 (-exponent).toNat, den * Nat.pow 2 exponent.toNat)

/-- The exponent of the double next to a positive fraction: the one that leaves a mantissa of 53
bits, but no less than the least exponent. -/
def exponentOf (num den : Nat) : Int :=
  let guess : Int := (num.log2 : Int) - den.log2 - 52
  let (n, d) := scaled num den guess
  max leastExponent (if n / d < fullMantissa then guess - 1 else guess)

/-- The double next to a positive fraction. -/
def ofFraction (negative : Bool) (num den : Nat) : Double :=
  let e := exponentOf num den
  let (n, d) := scaled num den e
  let m := nearest n d
  if m = 2 * fullMantissa then ⟨negative, fullMantissa, e + 1⟩ else ⟨negative, m, e⟩

/-- The double is not beyond the largest one. -/
def isReachable (x : Double) : Bool :=
  x.exponent ≤ 971

/-- The double next to a decimal. Decimals far out of reach are told by the place of their first
digit. -/
def ofDecimal? (x : Decimal) : Option Double :=
  let place : Int := (Nat.repr x.mantissa).length + x.exponent
  if x.mantissa = 0 ∨ place < -330 then some ⟨x.negative, 0, leastExponent⟩
  else if place > 320 then none
  else
    let y := ofFraction x.negative (x.mantissa * Nat.pow 10 x.exponent.toNat)
      (Nat.pow 10 (-x.exponent).toNat)
    if y.isReachable then some y else none

/-! ### The shortest decimal -/

/-- The numerator and the denominator of a number of quarters of the last bit of a double. -/
def quarters (x : Double) (count : Nat) : Nat × Nat :=
  (count * Nat.pow 2 x.exponent.toNat, 4 * Nat.pow 2 (-x.exponent).toNat)

/-- The bounds, in quarters of the last bit, of the numbers that are rounded to the double. Below a
power of two the doubles are twice as dense. -/
def bounds (x : Double) : Nat × Nat :=
  let step := if x.mantissa = fullMantissa ∧ leastExponent < x.exponent then 1 else 2
  (4 * x.mantissa - step, 4 * x.mantissa + 2)

/-- The decimal `n · 10 ^ exponent` is rounded to the double. The bounds themselves are, if the
mantissa is even. -/
def isRounded (x : Double) (n : Nat) (exponent : Int) : Bool :=
  let (low, high) := x.bounds
  let (lowNum, den) := x.quarters low
  let (highNum, _) := x.quarters high
  let value := n * Nat.pow 10 exponent.toNat * den
  let unit := Nat.pow 10 (-exponent).toNat
  if x.mantissa % 2 = 0 then lowNum * unit ≤ value && value ≤ highNum * unit
  else lowNum * unit < value && value < highNum * unit

/-- The multiple of a power of ten that is next to the double, if it is rounded to the double; if
not, the one on the other side, if that one is. -/
def onGrid? (x : Double) (exponent : Int) : Option Decimal :=
  let (num, den) := x.quarters (4 * x.mantissa)
  let num := num * Nat.pow 10 (-exponent).toNat
  let den := den * Nat.pow 10 exponent.toNat
  let n := nearest num den
  let below := num / den
  let other := if n = below then below + 1 else below
  if x.isRounded n exponent then some ⟨x.negative, n, exponent⟩
  else if x.isRounded other exponent then some ⟨x.negative, other, exponent⟩
  else none

/-- The decimal on the coarsest of several grids, each ten times finer than the one before. -/
def coarsest (x : Double) : Nat → Int → Decimal
  | 0, exponent => ⟨x.negative, 0, exponent⟩
  | n + 1, exponent => (x.onGrid? exponent).getD (coarsest x n (exponent - 1))

/-- The exponent of a power of ten that is no less than the double. -/
def decimalPlace (x : Double) : Int :=
  ((x.mantissa.log2 : Int) + 1 + x.exponent) * 30103 / 100000 + 1

/-- The decimal with the fewest digits that is rounded to the double. -/
def shortest (x : Double) : Decimal :=
  if x.isZero then ⟨x.negative, 0, 0⟩ else x.coarsest 30 x.decimalPlace

/-! ### Use -/

/-- The number without its fraction. -/
def truncated (x : Double) : Int :=
  let n := x.mantissa * Nat.pow 2 x.exponent.toNat / Nat.pow 2 (-x.exponent).toNat
  if x.negative then -(n : Int) else n

/-- The number without an exponent, in as few digits as tell it from all others. -/
def render (x : Double) : String :=
  x.shortest.render

/-- An integer as a double. -/
def ofInt? (n : Int) : Option Double :=
  ofDecimal? ⟨n < 0, n.natAbs, 0⟩

end Double

end Forwarder
