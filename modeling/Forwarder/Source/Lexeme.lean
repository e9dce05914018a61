/-
**Lexemes.** Which stretch of text each kind of token covers, and the tokens of a whole text.

Every kind has an *extent*: how many characters it covers at the start of a text, if it covers any.
The kinds are tried in a fixed order and the first one with an extent wins, whether or not a later
one would cover more.

* `TokenKind.extent?` — the extent of one kind.
* `lexeme?` — the first kind that has an extent, with that extent.
* `scan` — the tokens of a text, comments and white space included, or the place where no kind fits.
* `lex` — the same without the kinds that only separate.
-/

import Forwarder.Source.Token
import Forwarder.Text.Blank
import Forwarder.Text.Letter
import Forwarder.Text.Numeral
import Forwarder.Text.Quoted

namespace Forwarder.Source

open Text (isLetter isNumeral isGap isWordChar)

/-! ### Pieces of lexemes -/

/-- How many characters at the start satisfy the test. -/
def runLength (test : Char → Bool) (cs : List Char) : Nat :=
  (cs.takeWhile test).length

/-- How many characters there are up to and including the first occurrence of `mark`. -/
def through? (mark : List Char) : List Char → Option Nat
  | [] => if mark.isEmpty then some 0 else none
  | c :: rest =>
    if mark.isPrefixOf (c :: rest) then some mark.length else (through? mark rest).map (· + 1)

/-- The rest of a literal up to and including the closing quote. A backslash takes the next
character of the line with it, and no literal goes past the end of its line. -/
def closing? (quote : Char) : List Char → Option Nat
  | [] => none
  | '\\' :: c :: rest => if c = '\n' then none else (closing? quote rest).map (· + 2)
  | c :: rest =>
    if c = quote then some 1
    else if c = '\\' || c = '\n' then none
    else (closing? quote rest).map (· + 1)

/-- One character of the given set, if it stands at the start. -/
def oneOf (set : String) : List Char → Nat
  | [] => 0
  | c :: _ => if set.toList.contains c then 1 else 0

/-- An exponent mark with its sign and digits, or nothing. -/
def exponentLength : List Char → Nat
  | [] => 0
  | e :: rest =>
    if e = 'e' || e = 'E' then
      let sign := oneOf "+-" rest
      let digits := runLength Char.isDigit (rest.drop sign)
      if digits = 0 then 0 else 1 + sign + digits
    else 0

/-- The fraction of a number: the point and the digits after it, or nothing. -/
def fractionLength : List Char → Nat
  | '.' :: rest => 1 + runLength (fun c => c.isDigit || c == '_') rest
  | _ => 0

/-- A digit in base sixteen, or the underscore between digits. -/
def isHexChar (c : Char) : Bool :=
  c.isDigit || ('a' ≤ c && c ≤ 'f') || ('A' ≤ c && c ≤ 'F') || c == '_'

/-- The rest of a decimal number after `n` characters: an exponent and a type letter. -/
def numberTail (letters : String) (n : Nat) (cs : List Char) : Nat :=
  let n := n + exponentLength (cs.drop n)
  n + oneOf letters (cs.drop n)

/-- A number in base sixteen: `0x`, at least one digit, and an optional `L`. -/
def hexNumber? (cs : List Char) : Option Nat :=
  match cs with
  | '0' :: x :: rest =>
    if x = 'x' || x = 'X' then
      let digits := runLength isHexChar rest
      if digits = 0 then none else some (2 + digits + oneOf "lL" (rest.drop digits))
    else none
  | _ => none

/-- A number that starts with a digit, with optional fraction, exponent and type letter. -/
def decimalNumber? (cs : List Char) : Option Nat :=
  match cs with
  | c :: rest =>
    if c.isDigit then
      let whole := 1 + runLength (fun c => c.isDigit || c == '_') rest
      some (numberTail "lLfFdD" (whole + fractionLength (cs.drop whole)) cs)
    else none
  | [] => none

/-- A number that starts with its point. -/
def pointNumber? (cs : List Char) : Option Nat :=
  match cs with
  | '.' :: rest =>
    let digits := runLength Char.isDigit rest
    if digits = 0 then none else some (numberTail "fFdD" (1 + digits) cs)
  | _ => none

/-! ### Extents -/

/-- The first character of an identifier. -/
def isIdentStart (c : Char) : Bool :=
  isLetter c || c == '_' || c == '$'

/-- A later character of an identifier. -/
def isIdentPart (c : Char) : Bool :=
  isLetter c || isNumeral c || c == '_' || c == '$'

/-- The characters that are tokens by themselves. -/
def punctuationMarks : List Char :=
  "-+*/%=!<>&|^~?:;,.@()\x7b\x7d[]".toList

/-- A comment, to the end of the line or up to its closing mark. -/
def commentExtent? : List Char → Option Nat
  | '/' :: '/' :: rest => some (2 + runLength (· != '\n') rest)
  | '/' :: '*' :: rest => (through? ['*', '/'] rest).map (· + 2)
  | _ => none

/-- A text block between tripled quotes. -/
def textBlockExtent? : List Char → Option Nat
  | '"' :: '"' :: '"' :: rest => (through? ['"', '"', '"'] rest).map (· + 3)
  | _ => none

/-- A string between double quotes. -/
def stringExtent? : List Char → Option Nat
  | '"' :: rest => (closing? '"' rest).map (· + 1)
  | _ => none

/-- One or more characters between single quotes. -/
def characterExtent? : List Char → Option Nat
  | '\'' :: '\'' :: _ => none
  | '\'' :: rest => (closing? '\'' rest).map (· + 1)
  | _ => none

/-- The word `@interface`, not followed by a word character. -/
def annotationDeclExtent? (cs : List Char) : Option Nat :=
  let word := "@interface".toList
  if word.isPrefixOf cs && !((cs.drop word.length).head?.any isWordChar) then some word.length
  else none

/-- An identifier; keywords are identifiers too. -/
def identifierExtent? : List Char → Option Nat
  | c :: rest => if isIdentStart c then some (1 + runLength isIdentPart rest) else none
  | [] => none

/-- Three points. -/
def ellipsisExtent? : List Char → Option Nat
  | '.' :: '.' :: '.' :: _ => some 3
  | _ => none

/-- A number in any of its three forms. -/
def numberExtent? (cs : List Char) : Option Nat :=
  hexNumber? cs <|> decimalNumber? cs <|> pointNumber? cs

/-- A single mark. -/
def punctuationExtent? : List Char → Option Nat
  | c :: _ => if punctuationMarks.contains c then some 1 else none
  | [] => none

/-- A run of separating characters. -/
def whitespaceExtent? : List Char → Option Nat
  | c :: rest => if isGap c then some (1 + runLength isGap rest) else none
  | [] => none

/-- How many characters a token of this kind covers at the start of the text. -/
def TokenKind.extent? : TokenKind → List Char → Option Nat
  | .comment => commentExtent?
  | .textBlock => textBlockExtent?
  | .string => stringExtent?
  | .character => characterExtent?
  | .annotationDecl => annotationDeclExtent?
  | .identifier => identifierExtent?
  | .ellipsis => ellipsisExtent?
  | .number => numberExtent?
  | .punctuation => punctuationExtent?
  | .whitespace => whitespaceExtent?

/-- The kinds in the order in which they are tried. -/
def TokenKind.order : List TokenKind :=
  [.comment, .textBlock, .string, .character, .annotationDecl, .identifier, .ellipsis, .number,
    .punctuation, .whitespace]

/-- The first kind with an extent at the start of the text. -/
def lexeme? (cs : List Char) : Option (TokenKind × Nat) :=
  TokenKind.order.findSome? fun kind => (kind.extent? cs).map (kind, ·)

/-! ### The tokens of a text -/

/-- Where scanning ended: at the end of the text, or in front of text that no kind covers. -/
structure Stop where
  pos : Position
  rest : List Char
deriving DecidableEq, Repr

/-- The tokens of a text that starts at `pos`, and where they end. Every token covers at least one
character, so `bound` tokens suffice for a text of that length. -/
def scanWithin : Nat → Position → List Char → List Token × Stop
  | 0, pos, cs => ([], ⟨pos, cs⟩)
  | bound + 1, pos, cs =>
    match lexeme? cs with
    | none => ([], ⟨pos, cs⟩)
    | some (kind, n) =>
      let text := cs.take n
      let (tokens, stop) := scanWithin bound (pos.advance text) (cs.drop n)
      (⟨kind, String.ofList text, pos⟩ :: tokens, stop)

/-- All tokens of a text, and where they end. -/
def scan (cs : List Char) : List Token × Stop :=
  scanWithin cs.length Position.start cs

/-- What no kind covers, as messages show it: the first sixteen characters. -/
def invalidText (rest : List Char) : String :=
  Text.quoted (String.ofList (if 16 < rest.length then rest.take 16 ++ "...".toList else rest))

/-- The tokens that carry meaning, with the place of the end of the text; or the place where the
text stops making sense, with the message. -/
def lex (cs : List Char) : Except (Position × String) (List Token × Position) :=
  let (tokens, stop) := scan cs
  if stop.rest.isEmpty then .ok (tokens.filter (!·.kind.separates), stop.pos)
  else .error (stop.pos, "lexer: invalid input text " ++ invalidText stop.rest)

end Forwarder.Source
