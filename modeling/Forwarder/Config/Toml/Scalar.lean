/-
**Scalars of TOML.** Texts in quotes, numbers, truth values and times, and what stands around them.

* `endOfLine`, `skipLines` — blanks, comments and line breaks.
* `quotedText` — a text in quotes, of one line or of several.
* `key` — a key with its parts.
* `word` — a number, a truth value or a time.
-/

import Forwarder.Yaml.Meaning
import Forwarder.Yaml.Node

namespace Forwarder.Toml

open Yaml

/-- What is read, and the characters behind it. -/
abbrev Read (α : Type) :=
  Option (α × List Char)

/-- A character in front of what is read. -/
def before (c : Char) (read : Read (List Char)) : Read (List Char) :=
  read.map fun (text, rest) => (c :: text, rest)

/-- The character may stand in a text or a comment: a control character may not, but for a tab. -/
def isAllowed (c : Char) : Bool :=
  c == '\t' || (0x20 ≤ c.toNat && c.toNat != 0x7f)

/-! ### Blanks and comments -/

/-- A space or a tab. -/
def isBlank (c : Char) : Bool :=
  c == ' ' || c == '\t'

/-- The characters behind blanks of the same line. -/
def skipBlanks (cs : List Char) : List Char :=
  cs.dropWhile isBlank

/-- The characters behind a line break. -/
def afterBreak? : List Char → Option (List Char)
  | '\n' :: rest => some rest
  | '\r' :: '\n' :: rest => some rest
  | _ => none

/-- The characters behind blanks and a comment, if there is one. A comment ends with its line. -/
def skipComment (cs : List Char) : Option (List Char) :=
  match skipBlanks cs with
  | '#' :: cs =>
    let rest := cs.dropWhile isAllowed
    if rest.isEmpty || (afterBreak? rest).isSome then some rest else none
  | cs => some cs

/-- The characters behind the end of a line: blanks, a comment and a line break. -/
def endOfLine (cs : List Char) : Option (List Char) :=
  match skipComment cs with
  | none => none
  | some [] => some []
  | some rest => afterBreak? rest

/-- The characters behind blanks, comments and line breaks. -/
def skipLines : Nat → List Char → Option (List Char)
  | 0, cs => some cs
  | n + 1, cs =>
    match skipComment cs with
    | none => none
    | some rest =>
      match afterBreak? rest with
      | some more => skipLines n more
      | none => some rest

/-! ### Texts -/

/-- The characters that escapes of one letter stand for. -/
def escapes : List (Char × Char) :=
  [('"', '"'), ('\\', '\\'), ('b', '\x08'), ('e', '\x1b'), ('f', '\x0c'), ('n', '\n'), ('r', '\r'),
    ('t', '\t')]

/-- The character of an escape, behind its backslash. -/
def escaped : List Char → Read Char
  | 'u' :: cs => numbered 4 cs
  | 'U' :: cs => numbered 8 cs
  | c :: cs => (escapes.lookup c).map (·, cs)
  | [] => none
where
  /-- The character whose number is written in so many digits. -/
  numbered (count : Nat) (cs : List Char) : Read Char :=
    if (cs.take count).length < count then none
    else ((hexValue? (cs.take count)).bind charAt?).map (·, cs.drop count)

/-- A text of one line up to its quote, in which escapes count or do not. -/
def lineText (quote : Char) (escapes : Bool) : Nat → List Char → Read (List Char)
  | 0, _ => none
  | _, [] => none
  | n + 1, c :: cs =>
    if c = quote then some ([], cs)
    else if c = '\\' ∧ escapes then
      match escaped cs with
      | none => none
      | some (e, cs) => before e (lineText quote escapes n cs)
    else if isAllowed c then before c (lineText quote escapes n cs)
    else none

/-- The characters behind blanks and line breaks. -/
def skipSpace : List Char → List Char
  | [] => []
  | '\r' :: '\n' :: rest => skipSpace rest
  | c :: rest => if isBlank c ∨ c = '\n' then skipSpace rest else c :: rest

/-- A text of several lines up to three quotes, in which escapes count or do not. Up to two quotes
more belong to the text, and a backslash at the end of a line joins it to the next. -/
def linesText (quote : Char) (escapes : Bool) : Nat → List Char → Read (List Char)
  | 0, _ => none
  | _, [] => none
  | n + 1, c :: cs =>
    if c = quote then
      let count := ((c :: cs).takeWhile (· == quote)).length
      let rest := (c :: cs).drop count
      if count > 5 then none
      else if count ≥ 3 then some (List.replicate (count - 3) quote, rest)
      else before c (linesText quote escapes n cs)
    else if c = '\\' ∧ escapes then
      if (afterBreak? (skipBlanks cs)).isSome then
        linesText quote escapes n (skipSpace cs)
      else
        match escaped cs with
        | none => none
        | some (e, cs) => before e (linesText quote escapes n cs)
    else if isAllowed c ∨ (afterBreak? (c :: cs)).isSome then
      before c (linesText quote escapes n cs)
    else none

/-- The characters behind a line break at the very start. -/
def skipFirstBreak (cs : List Char) : List Char :=
  (afterBreak? cs).getD cs

/-- A text in quotes of any kind. -/
def quotedText (cs : List Char) : Read String :=
  let found : Read (List Char) := match cs with
    | '"' :: '"' :: '"' :: cs => linesText '"' true (cs.length + 1) (skipFirstBreak cs)
    | '\'' :: '\'' :: '\'' :: cs => linesText '\'' false (cs.length + 1) (skipFirstBreak cs)
    | '"' :: cs => lineText '"' true (cs.length + 1) cs
    | '\'' :: cs => lineText '\'' false (cs.length + 1) cs
    | _ => none
  found.map fun (text, rest) => (String.ofList text, rest)

/-! ### Keys -/

/-- One part of a key. -/
def keyPart (cs : List Char) : Read String :=
  match cs with
  | '"' :: rest =>
    (lineText '"' true cs.length rest).map fun (text, rest) => (String.ofList text, rest)
  | '\'' :: rest =>
    (lineText '\'' false cs.length rest).map fun (text, rest) => (String.ofList text, rest)
  | cs =>
    let word := cs.takeWhile isWord
    if word.isEmpty then none else some (String.ofList word, cs.dropWhile isWord)

/-- A key: parts divided by dots. -/
def key : Nat → List Char → Read (List String)
  | 0, _ => none
  | n + 1, cs =>
    match keyPart (skipBlanks cs) with
    | none => none
    | some (part, rest) =>
      match skipBlanks rest with
      | '.' :: rest => (key n rest).map fun (parts, rest) => (part :: parts, rest)
      | rest => some ([part], rest)

/-! ### Times -/

/-- The number written by so many digits at the start, and what follows. -/
def digitsOf? (count : Nat) (cs : List Char) : Read Nat :=
  let ds := cs.take count
  if ds.length = count ∧ ds.all Char.isDigit then some (Decimal.valueOf ds, cs.drop count) else none

/-- What follows a day of the calendar. -/
def afterDay? (cs : List Char) : Option (List Char) := do
  let (year, rest) ← digitsOf? 4 cs
  let (month, rest) ← digitsOf? 2 (← after? '-' rest)
  let (day, rest) ← digitsOf? 2 (← after? '-' rest)
  if 1 ≤ month ∧ month ≤ 12 ∧ 1 ≤ day ∧ day ≤ daysIn year month then some rest else none

/-- What follows a fraction of a second, which may be missing. -/
def afterFraction? : List Char → Option (List Char)
  | '.' :: c :: rest => if c.isDigit then some (rest.dropWhile Char.isDigit) else none
  | ['.'] => none
  | cs => some cs

/-- What follows a time of day. A second may be a leap second. -/
def afterTimeOfDay? (cs : List Char) : Option (List Char) := do
  let (hour, rest) ← digitsOf? 2 cs
  let (minute, rest) ← digitsOf? 2 (← after? ':' rest)
  let (second, rest) ← digitsOf? 2 (← after? ':' rest)
  if hour < 24 ∧ minute < 60 ∧ second ≤ 60 then afterFraction? rest else none

/-- The text is nothing, or the difference to the universal time. -/
def isOffset (cs : List Char) : Bool :=
  match cs with
  | [] => true
  | s :: rest =>
    (rest.isEmpty && (s == 'Z' || s == 'z')) ||
    (s == '+' || s == '-') &&
      match digitsOf? 2 rest with
      | some (hour, ':' :: rest) =>
        match digitsOf? 2 rest with
        | some (minute, []) => hour < 24 && minute < 60
        | _ => false
      | _ => false

/-- The text is a day, a time of day, or both. -/
def isTime (cs : List Char) : Bool :=
  match afterDay? cs with
  | some [] => true
  | some (c :: rest) =>
    (c == 'T' || c == 't' || c == ' ') && (afterTimeOfDay? rest).any isOffset
  | none => afterTimeOfDay? cs == some []

/-- A character of a time. -/
def isTimeChar (c : Char) : Bool :=
  c.isDigit || ['-', 'T', 't', ':', '.', '+', 'Z', 'z'].contains c

/-- The characters of a time: a blank may stand between the day and the time of day. -/
def timeChars (cs : List Char) : List Char :=
  let first := cs.takeWhile isTimeChar
  match cs.drop first.length with
  | ' ' :: c :: rest =>
    if c.isDigit then first ++ ' ' :: (c :: rest).takeWhile isTimeChar else first
  | _ => first

/-- The text starts like a time: with four digits and a dash, or two digits and a colon. -/
def startsAsTime (cs : List Char) : Bool :=
  let count := (cs.takeWhile Char.isDigit).length
  let next := (cs.drop count).head?
  (count == 4 && next == some '-') || (count == 2 && next == some ':')

/-! ### Numbers -/

/-- An integer of 64 bits. -/
def integerMeaning? (negative : Bool) (n : Nat) : Option Meaning :=
  let value : Int := if negative then -(n : Int) else n
  if -(Text.signLimit : Int) ≤ value ∧ value < (Text.signLimit : Int) then some (.integer value) else none

/-- A number in a base, with underscores between its digits. -/
def basedMeaning? (base : Nat) (cs : List Char) : Option Meaning :=
  let isDigit := fun c => Text.digitValue c < base
  if Decimal.isSpaced isDigit false cs then
    (natural? base (Decimal.bare cs)).bind (integerMeaning? false)
  else none

/-- Digits without a needless zero at the start. -/
def isWhole (ds : List Char) : Bool :=
  !ds.isEmpty && ds.all Char.isDigit && (ds.length == 1 || ds.head? != some '0')

/-- An integer, or a decimal that has a point with digits on both sides, or an exponent. -/
def decimalMeaning? (cs : List Char) : Option Meaning :=
  let (negative, size) := Decimal.signed (Decimal.bare cs)
  let (whole, rest) := Decimal.digits size
  let hasPart := match rest with
    | '.' :: rest => !(Decimal.digits rest).1.isEmpty
    | _ => true
  if !(Decimal.isSpaced Char.isDigit false cs && isWhole whole && hasPart) then none
  else if rest.isEmpty then integerMeaning? negative (Decimal.valueOf whole)
  else decimal? (Decimal.bare cs)

/-- The meaning of a word without quotes. -/
def meaning? (word : String) : Option Meaning :=
  let cs := word.toList
  let (_, size) := Decimal.signed cs
  if word = "true" then some (.truth true)
  else if word = "false" then some (.truth false)
  else if size = "inf".toList ∨ size = "nan".toList then some .noDecimal
  else
    match cs with
    | '0' :: 'x' :: digits => basedMeaning? 16 digits
    | '0' :: 'o' :: digits => basedMeaning? 8 digits
    | '0' :: 'b' :: digits => basedMeaning? 2 digits
    | cs => decimalMeaning? cs

/-- A character of a number. -/
def isNumeral (c : Char) : Bool :=
  c.isAlphanum || c == '+' || c == '-' || c == '_' || c == '.' || c == ':'

/-- A number, a truth value or a time. -/
def word (cs : List Char) : Read Node :=
  if startsAsTime cs then
    let chars := timeChars cs
    if isTime chars then some (.scalar .time (String.ofList chars), cs.drop chars.length) else none
  else
    let text := String.ofList (cs.takeWhile isNumeral)
    (meaning? text).map fun m => (.scalar m text, cs.dropWhile isNumeral)

end Forwarder.Toml
