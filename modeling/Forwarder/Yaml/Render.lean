/-
**Writing nodes.** A tree as a text in blocks, two columns for each level.

* `Style`, `Style.of` — how a text is written as a scalar: without quotes where that is read back as
  the same text, in lines of its own where it has several.
* `Page` — a text that grows, with the column of its end.
* `Node.render` — a tree as a document.
-/

import Forwarder.Yaml.Merge

namespace Forwarder.Yaml

/-! ### Characters -/

/-- A character that is written as it is. -/
def isWritable (c : Char) : Bool :=
  let n := c.toNat
  n = 0x0A ∨ (0x20 ≤ n ∧ n ≤ 0x7E) ∨ (0xA0 ≤ n ∧ n ≤ 0xFFFD ∧ n ≠ 0xFEFF)

/-- A character that is special in a scalar without escapes. -/
def isSpecial (c : Char) : Bool :=
  c != '\t' && !isWritable c

/-- One character of a kind stands in front of one of another kind. -/
def holdsInRow (first second : Char → Bool) : List Char → Bool
  | a :: b :: rest => (first a && second b) || holdsInRow first second (b :: rest)
  | _ => false

/-! ### Styles -/

/-- How a scalar is written. -/
inductive Style
  | plain
  | single
  | double
  | literal
deriving DecidableEq, Repr

/-- Characters that have a meaning at the start of a scalar. -/
def leadingMarks : List Char :=
  ['#', ',', '[', ']', '\x7b', '\x7d', '&', '*', '!', '|', '>', '\'', '"', '%', '@', '\x60']

/-- The text ends here, or a blank follows. -/
def atBlank : List Char → Bool
  | [] => true
  | c :: _ => isBlank c

/-- The start of a text would be read as a mark. -/
def startsAsMark (cs : List Char) : Bool :=
  ['-', '-', '-'].isPrefixOf cs || ['.', '.', '.'].isPrefixOf cs ||
    match cs with
    | [] => false
    | c :: rest => leadingMarks.contains c || (['?', ':', '-'].contains c && atBlank rest)

/-- A colon before a blank or the end, or a number sign behind a blank: `spaced` tells whether a
blank was before. -/
def holdsMark : Bool → List Char → Bool
  | _, [] => false
  | spaced, c :: rest =>
    (c == ':' && atBlank rest) || (c == '#' && spaced) || holdsMark (isBlank c) rest

/-- A space stands at one of the ends. -/
def hasOuterSpace (cs : List Char) : Bool :=
  cs.head? == some ' ' || cs.getLast? == some ' '

/-- The text can be written in single quotes. -/
def fitsSingle (cs : List Char) : Bool :=
  !cs.any isSpecial && !cs.contains '\t' && !holdsInRow isBreak (· == ' ') cs &&
    !holdsInRow (· == ' ') isBreak cs

/-- The text can be written without quotes. -/
def fitsPlain (cs : List Char) : Bool :=
  fitsSingle cs && !cs.any isBreak && !hasOuterSpace cs && !startsAsMark cs && !holdsMark false cs

/-- The text can be written in lines of its own. -/
def fitsLiteral (cs : List Char) : Bool :=
  !cs.any isSpecial && cs.getLast? != some ' ' && !holdsInRow (· == ' ') isBreak cs

/-- Without quotes the text would mean something else, here or to older readers. -/
def isMistakable (s : String) : Bool :=
  Meaning.ofPlain s != .text || isOldTruth s || isSexagesimal s

/-- How a text is written as a scalar. -/
def Style.of (s : String) : Style :=
  let cs := s.toList
  if cs.contains '\n' then (if fitsLiteral cs then .literal else .double)
  else if isMistakable s then .double
  else if fitsPlain cs then .plain
  else if fitsSingle cs then .single
  else .double

/-! ### Escapes -/

/-- The hexadecimal digits of a number, in a given count. -/
def hexDigits (count n : Nat) : List Char :=
  let ds := (Nat.toDigits 16 n).map Char.toUpper
  List.replicate (count - ds.length) '0' ++ ds

/-- The short escapes that are written. -/
def writtenEscapes : List (Char × Char) :=
  [('\x00', '0'), ('\x07', 'a'), ('\x08', 'b'), ('\t', 't'), ('\n', 'n'), ('\x0b', 'v'),
    ('\x0c', 'f'), ('\r', 'r'), ('\x1b', 'e'), ('"', '"'), ('\\', '\\'), ('\u0085', 'N'),
    ('\u00a0', '_'), ('\u2028', 'L'), ('\u2029', 'P')]

/-- A character as an escape. -/
def escaped (c : Char) : List Char :=
  match writtenEscapes.lookup c with
  | some e => ['\\', e]
  | none =>
    if c.toNat ≤ 0xFF then '\\' :: 'x' :: hexDigits 2 c.toNat
    else if c.toNat ≤ 0xFFFF then '\\' :: 'u' :: hexDigits 4 c.toNat
    else '\\' :: 'U' :: hexDigits 8 c.toNat

/-- A character between double quotes is written as an escape. -/
def needsEscape (c : Char) : Bool :=
  !isWritable c || isBreak c || c == '"' || c == '\\'

/-- The text in double quotes. In a text that starts with a mark of the byte order all characters
are escaped. -/
def doubleQuoted (cs : List Char) : List Char :=
  let all := cs.head? == some '\ufeff'
  ['"'] ++ cs.flatMap (fun c => if all || needsEscape c then escaped c else [c]) ++ ['"']

/-! ### Pages -/

/-- A text that grows. -/
structure Page where
  /-- What is written, the last character first. -/
  written : List Char
  column : Nat
  /-- Nothing but indentation and dashes are on the line. -/
  isFresh : Bool

namespace Page

/-- A text without anything. -/
def empty : Page :=
  ⟨[], 0, true⟩

/-- What is written. -/
def text (p : Page) : String :=
  String.ofList p.written.reverse

/-- Some characters more on the line. -/
def put (p : Page) (cs : List Char) : Page :=
  { p with written := cs.reverse ++ p.written, column := p.column + cs.length }

/-- Some characters more on the line, which is no longer fresh. -/
def say (p : Page) (cs : List Char) : Page :=
  { p.put cs with isFresh := false }

/-- A line break. -/
def newLine (p : Page) (c : Char) : Page :=
  ⟨c :: p.written, 0, true⟩

/-- The end of the text moves to a column, on a new line unless the line is fresh and not that far.
-/
def indent (p : Page) (column : Nat) : Page :=
  let p := if !p.isFresh || p.column > column then p.newLine '\n' else p
  p.put (List.replicate (column - p.column) ' ')

/-- The characters of a text of several lines. What follows a line break is moved to a column; in
single quotes, quotes are written twice. `behindBreak` tells whether a line break was before. -/
def lines (column : Nat) (single : Bool) : Bool → List Char → Page → Page
  | _, [], p => p
  | behindBreak, c :: rest, p =>
    if isBreak c then lines column single true rest (p.newLine c)
    else
      let p := if behindBreak then p.indent column else p
      lines column single false rest (p.say (if single && c == '\'' then ['\'', '\''] else [c]))

/-- A text in lines of its own below a mark, which tells whether blanks or line breaks stand at the
start, and what becomes of line breaks at the end. -/
def literal (column : Nat) (cs : List Char) (p : Page) : Page :=
  let hint := if cs.head?.any fun c => c == ' ' || isBreak c then ['2'] else []
  let chomp := match cs.reverse with
    | [] => ['-']
    | [c] => if isBreak c then ['+'] else ['-']
    | c :: d :: _ => if !isBreak c then ['-'] else if isBreak d then ['+'] else []
  lines column false true cs (p.say (['|'] ++ hint ++ chomp))

/-- A text as a scalar, whose further lines start in a column. -/
def scalar (column : Nat) (s : String) (p : Page) : Page :=
  let cs := s.toList
  match Style.of s with
  | .plain => p.say cs
  | .single => (lines column true false cs (p.say ['\''])).say ['\'']
  | .double => p.say (doubleQuoted cs)
  | .literal => p.literal column cs

end Page

/-! ### Trees -/

namespace Node

/-- A truth value. -/
def ofTruth (b : Bool) : Node :=
  .scalar (.truth b) (if b then "true" else "false")

/-- How far the parts of a node are further to the right. -/
def levelWidth : Nat :=
  2

mutual

/-- A node behind a key or dash in a column. -/
def write (column : Nat) : Node → Page → Page
  | .scalar .text s, p => p.say [' '] |>.scalar (column + levelWidth) s
  | .scalar _ s, p => p.say (' ' :: s.toList)
  | .sequence [], p => p.say " []".toList
  | .mapping [], p => p.say " \x7b\x7d".toList
  | .sequence (item :: items), p => writeItems (column + levelWidth) (item :: items) p
  | .mapping (pair :: pairs), p => writePairs (column + levelWidth) (pair :: pairs) p
  | .alias name _, p | .cycle name, p => p.say (' ' :: '*' :: name.toList)

/-- The entries of a sequence in a column. -/
def writeItems (column : Nat) : List Node → Page → Page
  | [], p => p
  | item :: items, p => writeItems column items (item.write column ((p.indent column).put ['-']))

/-- The pairs of a mapping in a column. -/
def writePairs (column : Nat) : List (Node × Node) → Page → Page
  | [], p => p
  | (key, value) :: pairs, p =>
    let p := (p.indent column).scalar (column + levelWidth) key.keyText
    writePairs column pairs (value.write column (p.say [':']))

end

/-- A tree as a document. -/
def render (tree : Node) : String :=
  let page := match tree with
    | .sequence (item :: items) => writeItems 0 (item :: items) .empty
    | .mapping (pair :: pairs) => writePairs 0 (pair :: pairs) .empty
    | node => node.write 0 .empty
  (page.indent 0).text

end Node

end Forwarder.Yaml
