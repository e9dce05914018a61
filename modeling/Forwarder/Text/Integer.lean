/-
**Integers and truth values in texts.** Integers as settings write them: with a sign, with a base told by
their start, and with underscores between digits. And the words that settings accept for yes and no.

* `readInteger` — the integer of a text, or why there is none.
* `readTruth` — the truth value of a word.
-/


namespace Forwarder.Text

/-- Why a text is no integer. -/
inductive IntegerFault
  | malformed
  | tooLarge
deriving DecidableEq, Repr

/-- The fault as it is reported. -/
def IntegerFault.message : IntegerFault → String
  | malformed => "invalid syntax"
  | tooLarge => "value out of range"

/-- The value of a digit, letters counting from ten. -/
def digitValue (c : Char) : Nat :=
  if c.isDigit then c.toNat - '0'.toNat
  else if 'a' ≤ c ∧ c ≤ 'z' then c.toNat - 'a'.toNat + 10
  else if 'A' ≤ c ∧ c ≤ 'Z' then c.toNat - 'A'.toNat + 10
  else 36

/-- The base of a number, and its digits. A leading zero alone stands for octal. -/
def baseOf : List Char → Nat × List Char
  | ['0'] => (10, ['0'])
  | '0' :: mark :: c :: rest =>
    if mark = 'x' ∨ mark = 'X' then (16, c :: rest)
    else if mark = 'b' ∨ mark = 'B' then (2, c :: rest)
    else if mark = 'o' ∨ mark = 'O' then (8, c :: rest)
    else (8, mark :: c :: rest)
  | '0' :: rest => (8, rest)
  | cs => (10, cs)

/-- Every underscore stands between two digits; one may also follow the mark of a base. `digit`
tells whether a digit was before. -/
def wellSeparated : Bool → List Char → Bool
  | _, [] => true
  | digit, c :: rest =>
    if c = '_' then digit && !rest.isEmpty && rest.head? != some '_' && wellSeparated false rest
    else wellSeparated true rest

/-- The first number that takes more than 64 bits. -/
def wordLimit : Nat :=
  Nat.pow 2 64

/-- The first number that needs the bit of the sign in a number of 64 bits. -/
def signLimit : Nat :=
  Nat.pow 2 63

/-- The value of digits in a base behind those that make up `n`, underscores left out. The digits
are read up to the first fault: one that is no digit, or one that makes the value too large. -/
def valueFrom (base n : Nat) : List Char → Except IntegerFault Nat
  | [] => .ok n
  | c :: cs =>
    if c = '_' then valueFrom base n cs
    else if base ≤ digitValue c then .error .malformed
    else if wordLimit ≤ base * n + digitValue c then .error .tooLarge
    else valueFrom base (base * n + digitValue c) cs

/-- A sign, and what follows it. -/
def signOf : List Char → Bool × List Char
  | '-' :: rest => (true, rest)
  | '+' :: rest => (false, rest)
  | cs => (false, cs)

/-- The integer of a text; it has to fit into 64 bits. -/
def readInteger (s : String) : Except IntegerFault Int :=
  let (negative, cs) := signOf s.toList
  let (base, ds) := baseOf cs
  if cs.isEmpty then .error .malformed
  else
    match valueFrom base 0 ds with
    | .error fault => .error fault
    | .ok n =>
      if !wellSeparated (base != 10) ds then .error .malformed
      else if negative then if n ≤ signLimit then .ok (-(n : Int)) else .error .tooLarge
      else if n < signLimit then .ok n
      else .error .tooLarge

/-- The truth value of a word. -/
def readTruth (s : String) : Option Bool :=
  if ["1", "t", "T", "TRUE", "true", "True"].contains s then some true
  else if ["0", "f", "F", "FALSE", "false", "False"].contains s then some false
  else none

end Forwarder.Text
