/-
**Meanings.** What a scalar stands for.

* `Meaning.ofPlain` — the meaning of an unquoted scalar.
* `Meaning.ofTagged` — the meaning of a scalar that says what it is.
* `isOldTruth`, `isSexagesimal` — texts that older readers take for truth values and numbers.
-/

import Forwarder.Text.Integer
import Forwarder.Double

namespace Forwarder.Yaml

/-- What a scalar stands for. -/
inductive Meaning
  | null
  | truth (value : Bool)
  | integer (value : Int)
  | decimal (value : Double)
  /-- An infinity, or no number at all. -/
  | noDecimal
  | time
  | text
  /-- As a key: the pairs of other mappings are taken over. -/
  | merge
  /-- The scalar is no such thing as it says. -/
  | impossible
deriving DecidableEq, Repr

/-! ### Integers -/

/-- A number in a base. -/
def natural? (base : Nat) (cs : List Char) : Option Nat :=
  if cs.isEmpty || cs.any (fun c => Text.digitValue c ≥ base) then none
  else some (cs.foldl (fun n c => base * n + Text.digitValue c) 0)

/-- A number whose base is told by how it starts; a leading zero stands for octal. -/
def magnitude? : List Char → Option Nat
  | '0' :: c :: rest =>
    if c = 'x' ∨ c = 'X' then natural? 16 rest
    else if c = 'b' ∨ c = 'B' then natural? 2 rest
    else if c = 'o' ∨ c = 'O' then natural? 8 rest
    else natural? 8 (c :: rest)
  | cs => natural? 10 cs

/-- An integer of at most 64 bits; without a sign it has all of them for its value. -/
def integer? (cs : List Char) : Option Int :=
  let hasSign := cs.head? = some '-' ∨ cs.head? = some '+'
  let (negative, rest) := Decimal.signed cs
  match magnitude? rest with
  | none => none
  | some n =>
    let limit := if negative then Text.signLimit + 1 else if hasSign then Text.signLimit else Text.wordLimit
    if n < limit then some (if negative then -(n : Int) else n) else none

/-- A number with a sign behind the mark of its base. -/
def signedBehindBase? : List Char → Option Int
  | '0' :: c :: s :: rest =>
    let base := if c = 'b' then 2 else 8
    if (c = 'b' ∨ c = 'o') ∧ (s = '+' ∨ s = '-') then
      match natural? base rest with
      | none => none
      | some n =>
        if s = '-' then (if n ≤ Text.signLimit then some (-(n : Int)) else none)
        else if n < Text.signLimit then some n
        else none
    else none
  | _ => none

/-! ### Times -/

/-- One or two digits, and the rest. -/
def shortNumber? : List Char → Option (Nat × List Char)
  | a :: rest =>
    if a.isDigit then
      match rest with
      | b :: more =>
        if b.isDigit then some (Decimal.valueOf [a, b], more) else some (Decimal.valueOf [a], rest)
      | [] => some (Decimal.valueOf [a], [])
    else none
  | [] => none

/-- A given character, and what follows it. -/
def after? (mark : Char) : List Char → Option (List Char)
  | c :: rest => if c = mark then some rest else none
  | [] => none

/-- The days of a month. -/
def daysIn (year month : Nat) : Nat :=
  if month = 2 then
    if year % 4 = 0 ∧ (year % 100 ≠ 0 ∨ year % 400 = 0) then 29 else 28
  else if [4, 6, 9, 11].contains month then 30
  else 31

/-- What follows a date with a year of four digits. -/
def afterDate? (cs : List Char) : Option (List Char) := do
  let (year, rest) := Decimal.digits cs
  if year.length ≠ 4 then none
  let rest ← after? '-' rest
  let (month, rest) ← shortNumber? rest
  let rest ← after? '-' rest
  let (day, rest) ← shortNumber? rest
  if 1 ≤ month ∧ month ≤ 12 ∧ 1 ≤ day ∧ day ≤ daysIn (Decimal.valueOf year) month then some rest
  else none

/-- What follows a fraction of a second, which may be missing. -/
def afterFraction : List Char → List Char
  | c :: d :: rest =>
    if (c = '.' ∨ c = ',') ∧ d.isDigit then rest.dropWhile Char.isDigit else c :: d :: rest
  | cs => cs

/-- What follows a time of day. -/
def afterClock? (cs : List Char) : Option (List Char) := do
  let (hour, rest) ← shortNumber? cs
  let rest ← after? ':' rest
  let (minute, rest) ← shortNumber? rest
  let rest ← after? ':' rest
  let (second, rest) ← shortNumber? rest
  if hour < 24 ∧ minute < 60 ∧ second < 60 then some (afterFraction rest) else none

/-- The text is a time zone: `Z`, or hours and minutes with a sign. -/
def isZone (cs : List Char) : Bool :=
  match cs with
  | ['Z'] => true
  | [s, a, b, ':', c, d] =>
    (s == '+' || s == '-') && [a, b, c, d].all Char.isDigit &&
      Decimal.valueOf [a, b] ≤ 24 && Decimal.valueOf [c, d] ≤ 60
  | _ => false

/-- The text is a date, alone or with a time of day. -/
def isTime (cs : List Char) : Bool :=
  match afterDate? cs with
  | none => false
  | some [] => true
  | some (c :: rest) =>
    match afterClock? (if c = ' ' then rest.dropWhile (· == ' ') else rest) with
    | none => false
    | some zone => if c = 'T' ∨ c = 't' then isZone zone else c == ' ' && zone.isEmpty

/-! ### Scalars -/

/-- Words with a meaning of their own. -/
def words : List (String × Meaning) :=
  (["", "~", "null", "Null", "NULL"].map fun w => (w, .null)) ++
  (["true", "True", "TRUE"].map fun w => (w, .truth true)) ++
  (["false", "False", "FALSE"].map fun w => (w, .truth false)) ++
  ([".nan", ".NaN", ".NAN", ".inf", ".Inf", ".INF", "+.inf", "+.Inf", "+.INF", "-.inf", "-.Inf",
    "-.INF"].map fun w => (w, .noDecimal))

/-- A decimal that is within reach. -/
def decimal? (cs : List Char) : Option Meaning :=
  ((Decimal.ofChars? cs).bind Double.ofDecimal?).map .decimal

/-- The meaning of a text that starts like a number. -/
def ofNumeral (cs : List Char) : Meaning :=
  if isTime cs then .time
  else
    match integer? (Decimal.bare cs) with
    | some n => .integer n
    | none =>
      match decimal? (Decimal.bare cs), signedBehindBase? (Decimal.bare cs) with
      | some meaning, _ => meaning
      | none, some n => .integer n
      | none, none => .text

namespace Meaning

/-- The meaning of an unquoted scalar. -/
def ofPlain (s : String) : Meaning :=
  match words.lookup s, s.toList with
  | some meaning, _ => meaning
  | none, [] => .null
  | none, c :: rest =>
    if c = '.' then
      if Decimal.isSpaced Char.isDigit false rest then
        (decimal? (Decimal.bare (c :: rest))).getD .text
      else .text
    else if c.isDigit ∨ c = '+' ∨ c = '-' then ofNumeral (c :: rest)
    else .text

/-- The text that stands for a merge where a key is. -/
def mergeText : String :=
  "<<"

/-- The meaning of an unquoted scalar without a tag. -/
def ofUntagged (s : String) : Meaning :=
  if s = mergeText then .merge else .ofPlain s

/-- The meaning, if it is of a kind. -/
def only (isKind : Bool) (meaning : Meaning) : Meaning :=
  if isKind then meaning else .impossible

/-- The meaning as a decimal. -/
def asDecimal : Meaning → Meaning
  | .integer n =>
    if -(Text.signLimit : Int) ≤ n ∧ n < (Text.signLimit : Int) then ((Double.ofInt? n).map .decimal).getD .impossible
    else .impossible
  | .decimal x => .decimal x
  | .noDecimal => .noDecimal
  | _ => .impossible

/-- The tags of the standard kinds start with this. -/
def standardTags : String :=
  "tag:yaml.org,2002:"

/-- The meaning of a scalar that says what it is. All it may say is whether it is one of the
standard kinds. -/
def ofTagged (tag s : String) : Meaning :=
  let meaning := ofPlain s
  if tag = standardTags ++ "null" then only (meaning = .null) meaning
  else if tag = standardTags ++ "bool" then
    only (meaning = .truth true ∨ meaning = .truth false) meaning
  else if tag = standardTags ++ "int" then
    match meaning with
    | .integer n => .integer n
    | _ => .impossible
  else if tag = standardTags ++ "float" then meaning.asDecimal
  else if tag = standardTags ++ "timestamp" then only (meaning = .time) meaning
  else if tag = standardTags ++ "merge" ∧ s = mergeText then .merge
  else .text

end Meaning

/-- Words that older readers take for truth values. -/
def isOldTruth (s : String) : Bool :=
  ["y", "Y", "yes", "Yes", "YES", "on", "On", "ON", "n", "N", "no", "No", "NO", "off", "Off",
    "OFF"].contains s

/-- Groups of up to two digits below sixty behind colons, with a fraction at the end. -/
def isSixtieths : Nat → List Char → Bool
  | _, [] => true
  | 0, _ => false
  | n + 1, ':' :: rest =>
    match shortNumber? rest with
    | some (k, rest) => k < 60 && isSixtieths n rest
    | none => false
  | _ + 1, '.' :: rest => rest.all fun c => c.isDigit || c == '_'
  | _ + 1, _ => false

/-- Texts that older readers take for numbers with the base sixty. -/
def isSexagesimal (s : String) : Bool :=
  let (_, cs) := Decimal.signed s.toList
  match cs with
  | c :: rest =>
    let rest := rest.dropWhile fun c => c.isDigit || c == '_'
    c.isDigit && rest.head? == some ':' && isSixtieths rest.length rest
  | [] => false

end Forwarder.Yaml
