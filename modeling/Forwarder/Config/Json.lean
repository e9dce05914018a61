/-
**JSON texts.** Settings written as JSON, read into the same trees as YAML documents.

Of several values under one key the last counts.

* `readJson` — the tree of a text.
-/

import Forwarder.Yaml.Node

namespace Forwarder.Json

open Yaml

/-- What is read, and the characters behind it. -/
abbrev Read (α : Type) :=
  Option (α × List Char)

/-- A character between tokens. -/
def isBlank (c : Char) : Bool :=
  c == ' ' || c == '\t' || c == '\n' || c == '\r'

/-- The characters behind blanks. -/
def skipBlanks (cs : List Char) : List Char :=
  cs.dropWhile isBlank

/-- The characters behind a word. -/
def afterWord (word : String) (cs : List Char) : Option (List Char) :=
  if word.toList.isPrefixOf cs then some (cs.drop word.length) else none

/-! ### Scalars -/

/-- The characters that escapes of one letter stand for. -/
def escapes : List (Char × Char) :=
  [('"', '"'), ('\\', '\\'), ('/', '/'), ('b', '\x08'), ('f', '\x0c'), ('n', '\n'), ('r', '\r'),
    ('t', '\t')]

/-- The number written by four hexadecimal digits. -/
def fourDigits (cs : List Char) : Read Nat :=
  if cs.length < 4 then none else (hexValue? (cs.take 4)).map (·, cs.drop 4)

/-- The character written by a number, or by two numbers that are halves of one; half a character
alone is replaced. -/
def numbered (n : Nat) (cs : List Char) : Char × List Char :=
  if 0xD800 ≤ n ∧ n < 0xDC00 then
    match (afterWord "\\u" cs).bind fourDigits with
    | some (low, rest) =>
      if 0xDC00 ≤ low ∧ low < 0xE000 then
        (Char.ofNat (0x10000 + (n - 0xD800) * 0x400 + (low - 0xDC00)), rest)
      else ('\ufffd', cs)
    | none => ('\ufffd', cs)
  else ((charAt? n).getD '\ufffd', cs)

/-- The rest of a text in quotes. -/
def quotedFrom : Nat → List Char → Read (List Char)
  | 0, _ => none
  | n + 1, cs =>
    match cs with
    | [] => none
    | '"' :: rest => some ([], rest)
    | '\\' :: 'u' :: rest =>
      match fourDigits rest with
      | none => none
      | some (k, rest) =>
        let (c, rest) := numbered k rest
        (quotedFrom n rest).map fun (text, rest) => (c :: text, rest)
    | '\\' :: e :: rest =>
      match escapes.lookup e with
      | none => none
      | some c => (quotedFrom n rest).map fun (text, rest) => (c :: text, rest)
    | c :: rest =>
      if c.toNat < 0x20 ∨ c = '\\' then none
      else (quotedFrom n rest).map fun (text, rest) => (c :: text, rest)

/-- A character of a number. -/
def isNumeral (c : Char) : Bool :=
  c.isDigit || c == '-' || c == '+' || c == '.' || c == 'e' || c == 'E'

/-- The text has the form of a number: no sign but a minus, no needless zero, and digits on both
sides of a point. -/
def isNumber (cs : List Char) : Bool :=
  let cs := match cs with
    | '-' :: rest => rest
    | cs => cs
  let (whole, rest) := Decimal.digits cs
  let rest := match rest with
    | '.' :: rest => match Decimal.digits rest with
      | ([], _) => ['.']
      | (_, rest) => rest
    | rest => rest
  !whole.isEmpty && (whole.length == 1 || whole.head? != some '0') &&
    (Decimal.exponent? rest).isSome

/-- A number. -/
def number (cs : List Char) : Read Node :=
  let text := cs.takeWhile isNumeral
  if isNumber text then
    match decimal? text with
    | some meaning => some (.scalar meaning (String.ofList text), cs.dropWhile isNumeral)
    | none => none
  else none

/-! ### Values -/

mutual

/-- A value; blanks before it are skipped. -/
def value : Nat → List Char → Read Node
  | 0, _ => none
  | n + 1, cs =>
    match skipBlanks cs with
    | '"' :: rest => (quotedFrom rest.length rest).map fun (s, rest) =>
      (.ofText (String.ofList s), rest)
    | '[' :: rest =>
      match skipBlanks rest with
      | ']' :: rest => some (.sequence [], rest)
      | rest => (items n rest).map fun (nodes, rest) => (.sequence nodes, rest)
    | '\x7b' :: rest =>
      match skipBlanks rest with
      | '\x7d' :: rest => some (.mapping [], rest)
      | rest => (pairs n rest).map fun (ps, rest) => (.mapping ps, rest)
    | cs =>
      match afterWord "true" cs, afterWord "false" cs, afterWord "null" cs with
      | some rest, _, _ => some (.scalar (.truth true) "true", rest)
      | _, some rest, _ => some (.scalar (.truth false) "false", rest)
      | _, _, some rest => some (.scalar .null "null", rest)
      | _, _, _ => number cs

/-- One or more values up to a closing bracket. -/
def items : Nat → List Char → Read (List Node)
  | 0, _ => none
  | n + 1, cs =>
    match value n cs with
    | none => none
    | some (node, rest) =>
      match skipBlanks rest with
      | ',' :: rest => (items n rest).map fun (nodes, rest) => (node :: nodes, rest)
      | ']' :: rest => some ([node], rest)
      | _ => none

/-- One or more keys with values up to a closing brace. -/
def pairs : Nat → List Char → Read (List (Node × Node))
  | 0, _ => none
  | n + 1, cs =>
    match skipBlanks cs with
    | '"' :: rest =>
      match quotedFrom rest.length rest with
      | none => none
      | some (key, rest) =>
        match skipBlanks rest with
        | ':' :: rest =>
          match value n rest with
          | none => none
          | some (node, rest) =>
            let pair := (Node.ofText (String.ofList key), node)
            match skipBlanks rest with
            | ',' :: rest => (pairs n rest).map fun (ps, rest) => (pair :: ps, rest)
            | '\x7d' :: rest => some ([pair], rest)
            | _ => none
        | _ => none
    | _ => none

end

/-- The tree of a text. -/
def readJson (text : String) : Option Node :=
  let cs := text.toList
  match value (2 * cs.length + 2) cs with
  | some (node, rest) => if (skipBlanks rest).isEmpty then some node else none
  | none => none

end Forwarder.Json
