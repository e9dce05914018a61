/-
**Lists of variables.** Settings written as lines of names and values, as a shell would set them.

A value may stand in quotes, and then go on in further lines. A dollar sign in front of a name
stands for the value of that name, unless it is between single quotes or behind a backslash.

* `parts?` — the name and the value of a line.
* `readDotenv` — the names and values of a text.
-/

import Forwarder.Text.Blank
import Forwarder.Text.Pieces

namespace Forwarder.Dotenv

/-- Names and their values, the last ones first. -/
abbrev Values :=
  List (String × String)

/-! ### Lines -/

/-- The lines of a text. A carriage return ends a line, too; with a line feed behind it, it is one
line end. -/
def linesFrom (line : List Char) : List Char → List (List Char)
  | [] => [line.reverse]
  | '\r' :: '\n' :: rest => line.reverse :: linesFrom [] rest
  | c :: rest =>
    if c = '\n' ∨ c = '\r' then line.reverse :: linesFrom [] rest else linesFrom (c :: line) rest

/-- The length in bytes that a line stays below. -/
def maxLine : Nat :=
  65536

/-- The position of the last occurrence in a list. -/
def lastIndex? {α : Type} [BEq α] (a : α) (as : List α) : Option Nat :=
  (as.reverse.idxOf? a).map fun i => as.length - 1 - i

/-- The value in a line, without the blanks around it: what is behind the first equals sign, or else
behind the first colon. -/
def valueIn? (line : List Char) : Option (List Char) :=
  let mark := if line.contains '=' then '=' else ':'
  match line.span (· != mark) with
  | (_ :: _, _ :: c :: rest) => some (Text.trimChars (c :: rest))
  | _ => none

/-- The quote that starts the value of a line and is not closed in that line. It is closed by the
last quote of the same kind unless a backslash stands in front of that; which byte that is, is
counted without the blanks behind the opening quote. -/
def openQuote? (line : List Char) : Option Char :=
  match valueIn? line with
  | some (quote :: rest) =>
    if quote = '"' ∨ quote = '\'' then
      let bytes (cs : List Char) := (String.ofList cs).toUTF8.toList
      match lastIndex? quote.toNat.toUInt8 (bytes (Text.trimChars rest)) with
      | some i => if (bytes (quote :: rest))[i]? = some '\\'.toNat.toUInt8 then some quote else none
      | none => some quote
    else none
  | _ => none

/-- The line closes a quote: the last quote of the kind has no backslash in front of it. -/
def closesQuote (quote : Char) (line : List Char) : Bool :=
  match line.reverse.dropWhile (· != quote) with
  | [] => false
  | _ :: before => before.head? != some '\\'

/-- The lines up to the one that closes a quote, each behind a line feed, and the lines behind. -/
def throughQuote (quote : Char) : List (List Char) → Option (List Char × List (List Char))
  | [] => none
  | line :: lines =>
    if closesQuote quote line then some ('\n' :: line, lines)
    else (throughQuote quote lines).map fun (more, rest) => ('\n' :: line ++ more, rest)

/-! ### Names and values -/

/-- Nothing but blanks and a comment of one line. -/
def isEnding (cs : List Char) : Bool :=
  match cs.dropWhile Text.isGap with
  | [] => true
  | c :: rest => c == '#' && !rest.contains '\n'

/-- A value in quotes: it ends at the last quote behind which nothing but a comment stands. `inner`
is what was read, the last character first. -/
def quotedFrom (quote : Char) (inner : List Char) : List Char → Option (List Char)
  | [] => none
  | c :: rest =>
    (quotedFrom quote (c :: inner) rest).or
      (if c = quote ∧ isEnding rest then some ((c :: inner).reverse) else none)

/-- A value in quotes, or up to a comment or the end of the line, or none. -/
def value? (cs : List Char) : Option (List Char) :=
  let bare := cs.takeWhile fun c => c != '#' && c != '\n'
  let quoted := match cs with
    | quote :: rest => if quote = '\'' ∨ quote = '"' then quotedFrom quote [quote] rest else none
    | [] => none
  quoted.or
    (if !bare.isEmpty && isEnding (cs.drop bare.length) then some bare
      else if isEnding cs then some []
      else none)

/-- The value behind a colon and blanks, of which as few as possible are left out. -/
def lazyValue? : List Char → Option (List Char)
  | [] => none
  | c :: rest => if Text.isGap c then (value? rest).or (lazyValue? rest) else none

/-- A name and its value: an equals sign divides them, or a colon with a blank behind it. -/
def assignment? (cs : List Char) : Option (String × List Char) :=
  let isNameChar := fun c => Text.isWordChar c || c == '.'
  let name := cs.takeWhile isNameChar
  let rest := cs.dropWhile isNameChar
  if name.isEmpty then none
  else
    let value := match rest.dropWhile Text.isGap, rest with
      | '=' :: rest, _ => value? (rest.dropWhile Text.isGap)
      | _, ':' :: rest => lazyValue? rest
      | _, _ => none
    value.map (String.ofList name, ·)

/-- The name and the value of a line. The word `export` may stand in front. -/
def parts? (line : List Char) : Option (String × List Char) :=
  let cs := line.dropWhile Text.isGap
  let word := "export".toList
  let rest := cs.drop word.length
  let behindWord :=
    if word.isPrefixOf cs && rest.head?.any Text.isGap then
      assignment? (rest.dropWhile Text.isGap)
    else none
  behindWord.or (assignment? cs)

/-! ### Escapes and variables -/

/-- The text with a character for each backslash with a letter behind it. -/
def replaceEscape (letter c : Char) : List Char → List Char
  | [] => []
  | '\\' :: d :: rest =>
    if d = letter then c :: replaceEscape letter c rest
    else '\\' :: replaceEscape letter c (d :: rest)
  | d :: rest => d :: replaceEscape letter c rest

/-- The text without backslashes, except those in front of dollar signs. -/
def unescape : List Char → List Char
  | [] => []
  | '\\' :: c :: rest => if c = '$' then '\\' :: c :: unescape rest else c :: unescape rest
  | c :: rest => c :: unescape rest

/-- A character of the name of a variable. -/
def isVariableChar (c : Char) : Bool :=
  c.isUpper || c.isDigit || c == '_'

/-- The reference behind a dollar sign: its characters, and the name in it. A brace may stand on
each side. -/
def reference (cs : List Char) : List Char × List Char :=
  let opening := (cs.take 1).filter (· == '\x7b')
  let name := (cs.drop opening.length).takeWhile isVariableChar
  let closing := ((cs.drop (opening.length + name.length)).take 1).filter (· == '\x7d')
  (opening ++ name ++ closing, name)

/-- The text with the values of the variables in it; `skipped` characters belong to a reference. -/
def expand (lookup : String → String) : Nat → List Char → List Char
  | _, [] => []
  | skipped + 1, _ :: rest => expand lookup skipped rest
  | 0, '\\' :: '$' :: rest =>
    let (chars, _) := reference rest
    '$' :: chars ++ expand lookup (chars.length + 1) ('$' :: rest)
  | 0, c :: rest =>
    if c = '$' then
      let (chars, name) := reference rest
      let value := if name.isEmpty then '$' :: chars else (lookup (String.ofList name)).toList
      value ++ expand lookup chars.length rest
    else c :: expand lookup 0 rest

/-- The value that is written: quotes are taken off, and what they do not protect is replaced. -/
def meaning (lookup : String → String) (value : List Char) : String :=
  let value := Text.trimChars value
  let inner := value.dropLast.drop 1
  let isIn (quote : Char) :=
    value.length ≥ 2 && value.head? == some quote && value.getLast? == some quote
  String.ofList <|
    if isIn '\'' then inner
    else if isIn '"' then
      expand lookup 0 (unescape (replaceEscape 'r' '\r' (replaceEscape 'n' '\n' inner)))
    else expand lookup 0 value

/-! ### Texts -/

/-- The names and values of lines. A name stands for its value in the environment, or else for the
last one it was given. -/
def readLines (environment : Values) : Nat → Values → List (List Char) → Option Values
  | 0, _, _ => none
  | _ + 1, found, [] => some found
  | n + 1, found, line :: lines =>
    let line := Text.trimChars line
    if line.isEmpty || line.head? == some '#' then readLines environment n found lines
    else
      let whole := match openQuote? line with
        | none => some (line, lines)
        | some quote => (throughQuote quote lines).map fun (more, rest) => (line ++ more, rest)
      match whole with
      | none => none
      | some (line, lines) =>
        let lookup (name : String) :=
          ((environment.lookup name).or (found.lookup name)).getD ""
        match parts? line with
        | none => none
        | some (name, value) =>
          readLines environment n ((name, meaning lookup value) :: found) lines

/-- The names and values of a text. A mark of the byte order at its start is passed over. -/
def readDotenv (environment : Values) (text : String) : Option Values :=
  let cs := match text.toList with
    | c :: rest => if c = '\ufeff' then rest else c :: rest
    | [] => []
  let lines := linesFrom [] cs
  if lines.any fun line => (String.ofList line).utf8ByteSize ≥ maxLine then none
  else readLines environment (lines.length + 1) [] lines

end Forwarder.Dotenv
