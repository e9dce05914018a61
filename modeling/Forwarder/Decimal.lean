/-
**Decimals.** Numbers with a decimal point and an exponent, as they are written.

* `Decimal.ofChars?` — reads a decimal.
* `Decimal.isSpaced` — underscores in a number are in place.
* `Decimal.render` — the decimal without an exponent and without trailing zeros.
-/

namespace Forwarder

/-- The number `± mantissa · 10 ^ exponent`. -/
structure Decimal where
  negative : Bool
  mantissa : Nat
  exponent : Int
deriving DecidableEq, Repr

namespace Decimal

/-- The value of decimal digits. -/
def valueOf (digits : List Char) : Nat :=
  digits.foldl (fun n c => 10 * n + (c.toNat - '0'.toNat)) 0

/-- A sign and what follows it. -/
def signed : List Char → Bool × List Char
  | '-' :: rest => (true, rest)
  | '+' :: rest => (false, rest)
  | cs => (false, cs)

/-- The digits at the start, and the rest. -/
def digits (cs : List Char) : List Char × List Char :=
  (cs.takeWhile Char.isDigit, cs.dropWhile Char.isDigit)

/-- The exponent that ends a decimal; nothing at all is the exponent zero. -/
def exponent? : List Char → Option Int
  | [] => some 0
  | c :: rest =>
    if c = 'e' ∨ c = 'E' then
      let (negative, rest) := signed rest
      let (ds, rest) := digits rest
      if ds.isEmpty || !rest.isEmpty then none
      else some (if negative then -(valueOf ds : Int) else valueOf ds)
    else none

/-- Reads a decimal: digits with at most one point among or before them, and an exponent. -/
def ofChars? (cs : List Char) : Option Decimal :=
  let (negative, cs) := signed cs
  let (whole, cs) := digits cs
  let (part, cs) := match cs with
    | '.' :: rest => digits rest
    | rest => ([], rest)
  if whole.isEmpty && part.isEmpty then none
  else (exponent? cs).map fun e => ⟨negative, valueOf (whole ++ part), e - part.length⟩

/-- Every underscore stands between two digits; `behindDigit` tells whether a digit was before. -/
def isSpaced (isDigit : Char → Bool) : Bool → List Char → Bool
  | _, [] => true
  | behindDigit, c :: rest =>
    if c = '_' then behindDigit && rest.head?.any isDigit && isSpaced isDigit false rest
    else isSpaced isDigit (isDigit c) rest

/-- The text without its underscores. -/
def bare (cs : List Char) : List Char :=
  cs.filter (· != '_')

/-- The digits of a fraction without trailing zeros. -/
def trimmed (fraction : List Char) : List Char :=
  (fraction.reverse.dropWhile (· == '0')).reverse

/-- The number without an exponent and without trailing zeros. -/
def render (x : Decimal) : String :=
  let places := (-x.exponent).toNat
  let n := x.mantissa * Nat.pow 10 x.exponent.toNat
  let fraction := (Nat.repr (n % Nat.pow 10 places)).toList
  let padded := List.replicate (places - fraction.length) '0' ++ fraction
  let fraction := if places = 0 then [] else trimmed padded
  (if x.negative then "-" else "") ++ Nat.repr (n / Nat.pow 10 places) ++
    (if fraction.isEmpty then "" else "." ++ String.ofList fraction)

end Decimal

end Forwarder
