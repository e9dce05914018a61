/-
**Settings.** Values of settings, wherever they come from, and what they count as.

A setting is taken for what is wanted as far as that makes sense: a number for a text, a text for a
number, one value for a list of one.

* `Setting.text?`, `Setting.texts?`, `Setting.number?`, `Setting.flag?` — a value as what is wanted.
-/

import Forwarder.Text.Integer
import Forwarder.Text.Pieces
import Forwarder.Yaml.Merge

namespace Forwarder.Setting

open Yaml

/-- A number that is no decimal, as a text. -/
def noDecimalText (s : String) : String :=
  if Text.contains s "n" || Text.contains s "N" then
    if Text.contains s "a" || Text.contains s "A" then "NaN"
    else if Text.startsBy s "-" then "-Inf"
    else "+Inf"
  else "+Inf"

/-- A value as a text. -/
def text? (node : Node) : Option String :=
  match node.target with
  | .scalar .null _ => some ""
  | .scalar (.truth b) _ => some (if b then "1" else "0")
  | .scalar (.integer n) _ => some (toString n)
  | .scalar (.decimal x) _ => some x.render
  | .scalar .noDecimal s => some (noDecimalText s)
  | .scalar .time _ => none
  | .scalar .text s | .scalar .merge s => some s
  | _ => none

/-- A value as a list of texts: a text is split at its commas, another scalar stands alone. -/
def texts? (node : Node) : Option (List String) :=
  match node.target with
  | .scalar .text s | .scalar .merge s => some (if s.isEmpty then [] else Text.split ',' s)
  | .sequence nodes => nodes.mapM text?
  | .mapping pairs =>
    match effectivePairs pairs with
    | .ok [] => some []
    | _ => none
  | node => (text? node).map ([·])

/-- The least number of 64 bits. It also stands for a decimal that is out of reach. -/
def leastNumber : Int :=
  -(Text.signLimit : Int)

/-- The whole part of a decimal, if it fits into 64 bits. -/
def wholePart (x : Double) : Int :=
  let n := x.truncated
  if leastNumber ≤ n ∧ n < (Text.signLimit : Int) then n else leastNumber

/-- A value as a number of 64 bits. An integer without a sign may use the bit of the sign. -/
def number? (node : Node) : Option Int :=
  match node.target with
  | .scalar (.truth b) _ => some (if b then 1 else 0)
  | .scalar (.integer n) _ => some (Int.bmod n Text.wordLimit)
  | .scalar (.decimal x) _ => some (wholePart x)
  | .scalar .noDecimal _ => some leastNumber
  | .scalar .text s => if s.isEmpty then some 0 else (Text.readInteger s).toOption
  | _ => none

/-- A value as a truth value. -/
def flag? (node : Node) : Option Bool :=
  match node.target with
  | .scalar (.truth b) _ => some b
  | .scalar (.integer n) _ => some (n != 0)
  | .scalar (.decimal x) _ => some (!x.isZero)
  | .scalar .noDecimal _ => some true
  | .scalar .text s => if s.isEmpty then some false else Text.readTruth s
  | _ => none

end Forwarder.Setting
