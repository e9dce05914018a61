/-
**Tokens.** The marks and scalars of a text, with the structure that indentation gives to it made
explicit.

A scalar or bracket becomes the key of a mapping only when a colon is found behind it on the same
line; the tokens that open the mapping are then put in front of it. So tokens wait in a queue: the
first of them is given out when two more have been found and it cannot become a key any more.

* `Token` — scalars, brackets, and the marks for keys, values, entries and ends of blocks.
* `Scanner.fetch` — the next token goes into the queue.
* `tokens` — the tokens of a text; a text that cannot be read ends in `Token.broken`.
-/

import Forwarder.Yaml.Tag

namespace Forwarder.Yaml

/-- A mark or a scalar. -/
inductive Token
  | streamStart
  | streamEnd
  | directive (line : Directive)
  | documentStart
  | documentEnd
  | blockSequence
  | blockMapping
  | blockEnd
  | openSequence
  | closeSequence
  | openMapping
  | closeMapping
  | blockEntry
  | comma
  | key
  | value
  | alias (name : String)
  | anchor (name : String)
  | tag (tag : Tag)
  | scalar (plain : Bool) (text : String)
  /-- The text cannot be read from here on. -/
  | broken (problem : Problem)
deriving DecidableEq, Repr

/-- Where a key may have started. -/
structure PossibleKey where
  isPossible : Bool
  /-- Nothing but a key can stand here. -/
  isRequired : Bool
  /-- The token waits until it is known whether it is a key. -/
  isAwaited : Bool
  /-- How many tokens come before it. -/
  number : Nat
  line : Nat
  column : Nat
  index : Nat

/-- What is known in the middle of a text. -/
structure Scanner where
  cursor : Cursor
  /-- The tokens that were found and not given out. -/
  queue : List Token
  /-- How many tokens were given out. -/
  given : Nat
  /-- The columns of the open blocks, the innermost first. -/
  blocks : List Nat
  /-- The possible key of each open bracket, the innermost first, and of the block around them. -/
  keys : List PossibleKey
  /-- A key may start here. -/
  keyAllowed : Bool

namespace Scanner

/-- The start of a text. -/
def start (text : String) : Scanner :=
  ⟨.start text, [.streamStart], 0, [], [⟨false, false, false, 0, 0, 0, 0⟩], true⟩

/-- Some bracket is open. -/
def inFlow (s : Scanner) : Bool :=
  s.keys.length > 1

/-- The number of the next token. -/
def nextNumber (s : Scanner) : Nat :=
  s.given + s.queue.length

/-- One more token. -/
def push (s : Scanner) (token : Token) : Scanner :=
  { s with queue := s.queue ++ [token] }

/-- One more token with a number; if that one was given out, it is the last. -/
def insert (s : Scanner) (number : Nat) (token : Token) : Scanner :=
  if number < s.given then s.push token
  else
    let at' := number - s.given
    { s with queue := s.queue.take at' ++ token :: s.queue.drop at' }

/-- The cursor moved over some characters. -/
def skip (s : Scanner) (n : Nat) : Scanner :=
  { s with cursor := s.cursor.skip n }

/-- The least column inside the innermost block. -/
def innerColumn (s : Scanner) : Nat :=
  match s.blocks with
  | [] => 0
  | column :: _ => column + 1

/-- Ends all blocks that start to the right of a column. -/
def closeBlocks (s : Scanner) (column : Option Nat) : Scanner :=
  if s.inFlow then s
  else
    let closed := s.blocks.takeWhile fun b => column.all (· < b)
    { s with
      blocks := s.blocks.drop closed.length
      queue := s.queue ++ closed.map fun _ => Token.blockEnd }

/-- Opens a block at a column if it is further to the right than the innermost one. Its token gets a
number. -/
def openBlock (s : Scanner) (column number : Nat) (token : Token) : Scanner :=
  if s.inFlow || column < s.innerColumn then s
  else { s with blocks := column :: s.blocks }.insert number token

/-! ### Possible keys -/

/-- The possible key of the innermost level. -/
def possibleKey? (s : Scanner) : Option PossibleKey :=
  s.keys.head?.filter (·.isPossible)

/-- Changes the possible key of the innermost level. -/
def changeKey (s : Scanner) (change : PossibleKey → PossibleKey) : Scanner :=
  match s.keys with
  | [] => s
  | key :: keys => { s with keys := change key :: keys }

/-- No key can have started before this place. -/
def forgetKey (s : Scanner) : Scanner :=
  s.changeKey ({ · with isPossible := false })

/-- No key can have started before this place; one that had to be there is missed. -/
def dropKey (s : Scanner) : Except Problem Scanner :=
  match s.possibleKey? with
  | some key => if key.isRequired then .error .missingColon else .ok s.forgetKey
  | none => .ok s

/-- A key may start at this place. -/
def noteKey (s : Scanner) : Except Problem Scanner := do
  if !s.keyAllowed then return s
  let s ← s.dropKey
  let c := s.cursor
  let required := !s.inFlow && s.blocks.head? == some c.column
  return s.changeKey fun _ => ⟨true, required, true, s.nextNumber, c.line, c.column, c.index⟩

/-- A possible key is one no more at this place: it is on another line, or too far back. -/
def isPast (s : Scanner) (key : PossibleKey) : Bool :=
  key.line < s.cursor.line || key.index + 1024 < s.cursor.index

/-- A possible key, if it is still one at this place. One that had to be there is missed. -/
def present (s : Scanner) (key : PossibleKey) : Except Problem (Option PossibleKey) :=
  if s.isPast key then
    if key.isRequired then .error .missingColon else .ok none
  else .ok (some key)

/-- How deep brackets may be nested. -/
def maxDepth : Nat :=
  10000

/-- One level more. Its possible key is taken for the bracket until there is one. -/
def enterLevel (s : Scanner) : Except Problem Scanner :=
  if s.keys.length > maxDepth then .error .tooDeep
  else
    let c := s.cursor
    let none' := ⟨false, false, false, s.nextNumber, c.line, c.column, c.index⟩
    .ok { s with keys := none' :: s.keys }

/-- One level less. No token with the number of its last possible key is waited for any more. -/
def leaveLevel (s : Scanner) : Scanner :=
  match s.keys with
  | last :: outer :: keys =>
    { s with
      keys := (outer :: keys).map fun key =>
        if key.number = last.number then { key with isAwaited := false } else key }
  | _ => s

/-! ### Marks -/

/-- A line that separates documents. -/
def documentMark (s : Scanner) (token : Token) : Except Problem Scanner := do
  let s ← (s.closeBlocks none).dropKey
  return { s with keyAllowed := false }.push token |>.skip 3

/-- A line that tells something about the document behind it. -/
def directiveLine (s : Scanner) : Except Problem Scanner := do
  let s ← (s.closeBlocks none).dropKey
  let (line, cursor) ← s.cursor.directive
  return { s with cursor, keyAllowed := false }.push (.directive line)

/-- The end of the text, which counts as the end of a line. -/
def endMark (s : Scanner) : Except Problem Scanner := do
  let c := s.cursor
  let cursor := if c.column = 0 then c else { c with line := c.line + 1, column := 0 }
  let s ← ({ s with cursor }.closeBlocks none).dropKey
  return { s with keyAllowed := false }.push .streamEnd

/-- An opening bracket. -/
def openBracket (s : Scanner) (token : Token) : Except Problem Scanner := do
  let s ← (← s.noteKey).enterLevel
  return { s with keyAllowed := true }.push token |>.skip 1

/-- A closing bracket. -/
def closeBracket (s : Scanner) (token : Token) : Except Problem Scanner := do
  let s ← s.dropKey
  return { s.leaveLevel with keyAllowed := false }.push token |>.skip 1

/-- A comma between brackets. -/
def commaMark (s : Scanner) : Except Problem Scanner := do
  let s ← s.dropKey
  return { s with keyAllowed := true }.push .comma |>.skip 1

/-- A dash in front of an entry. -/
def entryMark (s : Scanner) : Except Problem Scanner := do
  if !s.inFlow && !s.keyAllowed then throw .misplacedEntry
  let s ← (s.openBlock s.cursor.column s.nextNumber .blockSequence).dropKey
  return { s with keyAllowed := true }.push .blockEntry |>.skip 1

/-- A question mark in front of a key. -/
def keyMark (s : Scanner) : Except Problem Scanner := do
  if !s.inFlow && !s.keyAllowed then throw .misplacedKey
  let s ← (s.openBlock s.cursor.column s.nextNumber .blockMapping).dropKey
  return { s with keyAllowed := !s.inFlow }.push .key |>.skip 1

/-- A colon in front of a value. If a key may have started on this line, it has. -/
def valueMark (s : Scanner) : Except Problem Scanner := do
  let key ← match s.possibleKey? with
    | some key => s.present key
    | none => pure none
  match key with
  | some key =>
    let s := (s.insert key.number .key).openBlock key.column key.number .blockMapping
    return { s.forgetKey with keyAllowed := false }.push .value |>.skip 1
  | none =>
    let s := s.forgetKey
    if s.inFlow then return { s with keyAllowed := false }.push .value |>.skip 1
    if !s.keyAllowed then throw .misplacedValue
    let s := s.openBlock s.cursor.column s.nextNumber .blockMapping
    return { s with keyAllowed := true }.push .value |>.skip 1

/-! ### Names and scalars -/

/-- The name of a node, or another node by its name. -/
def nameMark (s : Scanner) (token : String → Token) : Except Problem Scanner := do
  let s ← s.noteKey
  let (name, cursor) ← s.cursor.anchor
  return { s with cursor, keyAllowed := false }.push (token name)

/-- What a node is said to be. -/
def tagMark (s : Scanner) : Except Problem Scanner := do
  let s ← s.noteKey
  let (tag, cursor) ← s.cursor.tag
  return { s with cursor, keyAllowed := false }.push (.tag tag)

/-- A scalar in lines of their own. -/
def blockScalar (s : Scanner) (isLiteral : Bool) : Except Problem Scanner := do
  let s ← s.dropKey
  let (text, cursor) ← s.cursor.block isLiteral s.blocks.head?
  return { s with cursor, keyAllowed := true }.push (.scalar false text)

/-- A scalar in quotes. -/
def quotedScalar (s : Scanner) (single : Bool) : Except Problem Scanner := do
  let s ← s.noteKey
  let (text, cursor) ← s.cursor.quoted single
  return { s with cursor, keyAllowed := false }.push (.scalar false text)

/-- An unquoted scalar. After one that ends in a line break a key may start. -/
def plainScalar (s : Scanner) : Except Problem Scanner := do
  let s ← s.noteKey
  let (text, several, cursor) ← s.cursor.plain s.inFlow s.innerColumn
  return { s with cursor, keyAllowed := several }.push (.scalar true text)

/-! ### Gaps and comments -/

end Scanner

/-- How far a comment is looked for. -/
def commentReach : Nat :=
  512

/-- The place behind comments, the first of which is ahead. Further ones that follow with nothing
but blanks and empty lines in between belong to it. -/
def Cursor.skipComments (c : Cursor) : Nat → Except Problem Cursor
  | 0 => .ok c
  | n + 1 => do
    let (_, c) ← c.span (!isBreak ·)
    match c.rest with
    | [] => return c
    | first :: rest =>
      let isPassed := fun ch => isBlank ch || ch == '\n' || ch == '\r'
      if !isPassed first then return c
      let between := (rest.takeWhile isPassed).length
      c.need (min commentReach (between + 2))
      if between + 1 < commentReach && (rest.drop between).head? == some '#' then
        (c.skip (between + 1)).skipComments n
      else return c

/-- The place behind a comment in the same line as a token. -/
def Cursor.skipLineComment (c : Cursor) : Except Problem Cursor := do
  if c.isFresh then return c
  let blanks := (c.rest.takeWhile isBlank).length
  c.need (min commentReach (blanks + 1))
  if blanks < commentReach && (c.rest.drop blanks).head? == some '#' then
    let (_, c) ← (c.skip blanks).span (!isBreak ·)
    return c
  else return c

namespace Scanner

/-- A blank that may stand in front of a token. A tab cannot stand where a key may start. -/
def isSkipped (s : Scanner) (c : Char) : Bool :=
  c == ' ' || (c == '\t' && (s.inFlow || !s.keyAllowed))

/-- Skips blanks, comments and line breaks. Outside brackets a key may start in a new line. -/
def skipGaps (s : Scanner) : Nat → Except Problem Scanner
  | 0 => .ok s
  | n + 1 => do
    let c := s.cursor
    c.need 1
    let c := if c.index = 0 ∧ c.head? = some '\ufeff' then c.step else c
    let (_, c) ← c.span s.isSkipped
    let c ← if c.head? = some '#' then c.skipComments c.rest.length else pure c
    if c.head?.any isBreak then
      let cursor ← c.skipBreak
      { s with cursor, keyAllowed := s.keyAllowed || !s.inFlow }.skipGaps n
    else return { s with cursor := c }

/-! ### The whole text -/

/-- Characters that cannot start an unquoted scalar. -/
def indicators : List Char :=
  ['-', '?', ':', ',', '[', ']', '\x7b', '\x7d', '#', '&', '*', '!', '|', '>', '\'', '"', '%', '@',
    '\x60']

/-- An unquoted scalar starts with `c` when `rest` follows. -/
def startsPlain (s : Scanner) (c : Char) (rest : List Char) : Bool :=
  !(isGap c || indicators.contains c) ||
    (c == '-' && !rest.head?.any isBlank) ||
    (!s.inFlow && (c == '?' || c == ':') && !atGap rest)

/-- The token inside a line that starts with the character `c`, which is ahead. -/
def inLine (s : Scanner) (c : Char) (rest : List Char) : Except Problem Scanner :=
  if c = '[' then s.openBracket .openSequence
  else if c = '\x7b' then s.openBracket .openMapping
  else if c = ']' then s.closeBracket .closeSequence
  else if c = '\x7d' then s.closeBracket .closeMapping
  else if c = ',' then s.commaMark
  else if c = '-' ∧ atGap rest then s.entryMark
  else if c = '?' ∧ (s.inFlow ∨ atGap rest) then s.keyMark
  else if c = ':' ∧ (s.inFlow ∨ atGap rest) then s.valueMark
  else if c = '*' then s.nameMark .alias
  else if c = '&' then s.nameMark .anchor
  else if c = '!' then s.tagMark
  else if c = '|' ∧ !s.inFlow then s.blockScalar true
  else if c = '>' ∧ !s.inFlow then s.blockScalar false
  else if c = '\'' then s.quotedScalar true
  else if c = '"' then s.quotedScalar false
  else if s.startsPlain c rest then s.plainScalar
  else .error .strayCharacter

/-- The next token goes into the queue. A comment in the same line is skipped, but not behind a
dash. -/
def fetch (s : Scanner) : Except Problem Scanner := do
  let s ← s.skipGaps (s.cursor.rest.length + 1)
  let s := s.closeBlocks (some s.cursor.column)
  s.cursor.need 4
  match s.cursor.rest with
  | [] => s.endMark
  | c :: rest =>
    if c = '%' ∧ s.cursor.column = 0 then s.directiveLine
    else if s.cursor.atMark '-' then s.documentMark .documentStart
    else if s.cursor.atMark '.' then s.documentMark .documentEnd
    else
      let s ← s.inLine c rest
      if c = '-' ∧ atGap rest then return s
      return { s with cursor := ← s.cursor.skipLineComment }

/-- The first token in the queue can be given out: two more were found, and it cannot become a key.
-/
def isReady (s : Scanner) : Except Problem Bool :=
  if s.queue.length < 3 then .ok false
  else
    match s.keys.find? fun key => key.isPossible && key.isAwaited && key.number == s.given with
    | none => .ok true
    | some key => (s.present key).map (·.isNone)

/-- The tokens from here on, behind those that were given out. -/
def run (found : Array Token) (s : Scanner) : Nat → Array Token
  | 0 => found
  | n + 1 =>
    match s.isReady with
    | .error problem => found.push (.broken problem)
    | .ok false =>
      match s.fetch with
      | .error problem => found.push (.broken problem)
      | .ok s => run found s n
    | .ok true =>
      match s.queue with
      | [] => found
      | token :: queue =>
        if token = .streamEnd then found.push token
        else run (found.push token) { s with queue, given := s.given + 1 } n

end Scanner

/-- The tokens of a text. Every token that is no mark of a key or block is made of at least one
character, and there are at most four of those marks for each, so the number of characters bounds
the steps. -/
def tokens (text : String) : List Token :=
  let s := Scanner.start text
  (s.run #[] (8 * (s.cursor.rest.length + 4))).toList

end Forwarder.Yaml
