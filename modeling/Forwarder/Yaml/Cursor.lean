/-
**Cursors.** A place in a text with its line and column.

A text is taken in by pieces of at most 512 bytes. A character that may not stand in a text makes
its whole piece unreadable, but nobody misses that piece before something in it is looked for: what
is read before then counts.

* `Cursor` — the characters ahead and where they start.
* `Cursor.start` — the start of a text.
* `Cursor.need` — a number of characters is looked for.
* `Cursor.gap` — the blanks and line breaks ahead; `Gap.folded` is what they stand for in a scalar.
-/

import Forwarder.Yaml.Problem

namespace Forwarder.Yaml

/-! ### Characters -/

/-- A line break. -/
def isBreak (c : Char) : Bool :=
  c == '\n' || c == '\r' || c == '\u0085' || c == '\u2028' || c == '\u2029'

/-- A space or a tab. -/
def isBlank (c : Char) : Bool :=
  c == ' ' || c == '\t'

/-- A blank or a line break. -/
def isGap (c : Char) : Bool :=
  isBlank c || isBreak c

/-- The text ends here, or a blank or line break follows. -/
def atGap : List Char → Bool
  | [] => true
  | c :: _ => isGap c

/-- A character of a name. -/
def isWord (c : Char) : Bool :=
  c.isAlphanum || c == '_' || c == '-'

/-- What the line breaks among some characters stand for: most of them are the same, and a carriage
return with a line feed is one. -/
def breakValues : List Char → List Char
  | [] => []
  | '\r' :: '\n' :: rest => '\n' :: breakValues rest
  | c :: rest =>
    if c = '\u2028' ∨ c = '\u2029' then c :: breakValues rest
    else if isBreak c then '\n' :: breakValues rest
    else breakValues rest

/-- A character that may stand in a text. -/
def isAllowed (c : Char) : Bool :=
  let n := c.toNat
  n = 0x09 ∨ n = 0x0A ∨ n = 0x0D ∨ (0x20 ≤ n ∧ n ≤ 0x7E) ∨ n = 0x85 ∨ (0xA0 ≤ n ∧ n ≤ 0xFFFD) ∨
    0x10000 ≤ n

/-! ### Pieces -/

/-- The size of a piece in bytes. -/
def pieceSize : Nat :=
  512

/-- The characters in front of the first piece that is unreadable, and whether there is one. `kept`
are those of the pieces before, and `piece` those of the piece that is taken in, the last ones
first; `room` is what is left of that piece. -/
def readableFrom (kept piece : List Char) (room : Nat) : List Char → List Char × Bool
  | [] => ((piece ++ kept).reverse, false)
  | c :: rest =>
    if room < c.utf8Size then
      if isAllowed c then readableFrom (piece ++ kept) [c] (pieceSize - c.utf8Size) rest
      else ((piece ++ kept).reverse, true)
    else if isAllowed c then readableFrom kept (c :: piece) (room - c.utf8Size) rest
    else (kept.reverse, true)

/-- The characters in front of the first piece that is unreadable, and whether there is one. A mark
of the byte order at the start is passed over. -/
def readable : List Char → List Char × Bool
  | [] => ([], false)
  | c :: rest =>
    if c = '\ufeff' then readableFrom [] [] (pieceSize - c.utf8Size) rest
    else readableFrom [] [] pieceSize (c :: rest)

/-! ### Places -/

/-- The characters ahead and where they start. -/
structure Cursor where
  rest : List Char
  /-- What follows `rest` is unreadable. -/
  isCut : Bool
  line : Nat
  column : Nat
  index : Nat
  /-- A line break was passed, and nothing but blanks behind it. -/
  isFresh : Bool

namespace Cursor

/-- The start of a text. -/
def start (text : String) : Cursor :=
  let (rest, isCut) := readable text.toList
  ⟨rest, isCut, 0, 0, 0, false⟩

/-- The first character ahead. -/
def head? (c : Cursor) : Option Char :=
  c.rest.head?

/-- The place behind the next character. A carriage return in front of a line feed is no line break
by itself. -/
def step (c : Cursor) : Cursor :=
  match c.rest with
  | [] => c
  | ch :: rest =>
    if ch = '\r' ∧ rest.head? = some '\n' then { c with rest, index := c.index + 1 }
    else if isBreak ch then
      { c with rest, line := c.line + 1, column := 0, index := c.index + 1, isFresh := true }
    else
      { c with
        rest, column := c.column + 1, index := c.index + 1, isFresh := c.isFresh && isBlank ch }

/-- The place behind some of the characters ahead. -/
def skip (c : Cursor) : Nat → Cursor
  | 0 => c
  | n + 1 => c.step.skip n

/-- So many characters are ahead, or the text ends before. They cannot be had if the unreadable part
starts before. -/
def need (c : Cursor) (n : Nat) : Except Problem Unit :=
  if c.isCut && (c.rest.drop (n - 1)).isEmpty then .error .controlCharacter else .ok ()

/-- The characters ahead that are of a kind, and the place behind them. -/
def span (c : Cursor) (kind : Char → Bool) : Except Problem (List Char × Cursor) := do
  let run := c.rest.takeWhile kind
  let c := c.skip run.length
  c.need 1
  return (run, c)

/-- The place behind the line break ahead. -/
def skipBreak (c : Cursor) : Except Problem Cursor := do
  c.need 2
  return if ['\r', '\n'].isPrefixOf c.rest then c.skip 2 else c.step

/-- A line of three like characters that separates documents is ahead. -/
def atMark (c : Cursor) (mark : Char) : Bool :=
  c.column == 0 && [mark, mark, mark].isPrefixOf c.rest && atGap (c.rest.drop 3)

/-- A line that starts or ends a document is ahead. -/
def atAnyMark (c : Cursor) : Bool :=
  c.atMark '-' || c.atMark '.'

end Cursor

/-! ### Gaps -/

/-- Blanks and line breaks between two words: the blanks before the first line break, and what the
line breaks stand for. -/
structure Gap where
  blanks : List Char
  breaks : List Char

namespace Gap

/-- A run of blanks and line breaks as a gap. -/
def ofRun (run : List Char) : Gap :=
  ⟨run.takeWhile isBlank, breakValues run⟩

/-- What the line breaks stand for: the first one is folded. -/
def foldedBreaks : List Char → List Char
  | [] => []
  | first :: more =>
    if first = '\n' then (if more.isEmpty then [' '] else more) else first :: more

/-- What a gap inside a scalar stands for. -/
def folded (gap : Gap) : List Char :=
  if gap.breaks.isEmpty then gap.blanks else foldedBreaks gap.breaks

end Gap

/-- The blanks and line breaks ahead, and the place behind them. -/
def Cursor.gap (c : Cursor) : Except Problem (List Char × Cursor) :=
  c.span isGap

end Forwarder.Yaml
