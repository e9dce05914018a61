/-
**Scalars.** The texts of a document: unquoted, in quotes, or in lines of their own.

* `Cursor.plain` — an unquoted scalar.
* `Cursor.quoted` — a scalar in quotes.
* `Cursor.block` — a scalar in lines of their own below its mark.
-/

import Forwarder.Yaml.Cursor

namespace Forwarder.Yaml

/-! ### Unquoted scalars -/

/-- A tab stands in front of the column `indent` in a line after the first; `column` is the place in
the line, or none in the first line. -/
def hasStrayTab (indent : Nat) : Option Nat → List Char → Bool
  | _, [] => false
  | column, c :: rest =>
    if isBreak c then hasStrayTab indent (some 0) rest
    else
      match column with
      | none => hasStrayTab indent none rest
      | some k => (c == '\t' && k < indent) || hasStrayTab indent (some (k + 1)) rest

/-- Characters that end an unquoted scalar between brackets. -/
def flowMarks : List Char :=
  [',', '?', '[', ']', '\x7b', '\x7d']

/-- The character ends an unquoted scalar when `rest` follows it. -/
def endsPlain (flow : Bool) (c : Char) (rest : List Char) : Bool :=
  isGap c || (c == ':' && atGap rest) || (flow && flowMarks.contains c)

/-- The characters of an unquoted word. -/
def plainWord (flow : Bool) : List Char → List Char
  | [] => []
  | c :: rest => if endsPlain flow c rest then [] else c :: plainWord flow rest

/-- An unquoted scalar, the last character first, whether a line break ends it, and the place behind
it. `text` is what was read before, and `gap` what the gap behind that stands for. `indent` is the
least column of further lines; between brackets there is none. -/
def Cursor.plainFrom (flow : Bool) (indent : Nat) :
    Nat → List Char → List Char → Bool → Cursor → Except Problem (List Char × Bool × Cursor)
  | 0, text, _, several, c => .ok (text, several, c)
  | n + 1, text, gap, several, c => do
    c.need 4
    if c.atAnyMark || c.head? == some '#' then return (text, several, c)
    let word := plainWord flow c.rest
    let text := if word.isEmpty then text else word.reverse ++ gap.reverse ++ text
    let several := several && word.isEmpty
    let c := c.skip word.length
    c.need 2
    let (run, next) ← c.gap
    if run.isEmpty then return (text, several, c)
    if hasStrayTab indent none run then throw .strayTab
    let several := run.any isBreak
    if !flow && next.column < indent then return (text, several, next)
    next.plainFrom flow indent n text (Gap.ofRun run).folded several

/-- An unquoted scalar, whether a line break ends it, and the place behind it. -/
def Cursor.plain (c : Cursor) (flow : Bool) (indent : Nat) :
    Except Problem (String × Bool × Cursor) := do
  let (text, several, c) ← c.plainFrom flow indent (c.rest.length + 1) [] [] false
  return (String.ofList text.reverse, several, c)

/-! ### Quoted scalars -/

/-- The characters that short escapes stand for. -/
def shortEscapes : List (Char × Char) :=
  [('0', '\x00'), ('a', '\x07'), ('b', '\x08'), ('t', '\t'), ('\t', '\t'), ('n', '\n'),
    ('v', '\x0b'), ('f', '\x0c'), ('r', '\r'), ('e', '\x1b'), (' ', ' '), ('"', '"'),
    ('\'', '\''), ('/', '/'), ('\\', '\\'), ('N', '\u0085'), ('_', '\u00a0'), ('L', '\u2028'),
    ('P', '\u2029')]

/-- The value of hexadecimal digits. -/
def hexValue? (cs : List Char) : Option Nat :=
  cs.foldl (fun n c =>
    let d := if c.isDigit then some (c.toNat - '0'.toNat)
      else if 'a' ≤ c ∧ c ≤ 'f' then some (c.toNat - 'a'.toNat + 10)
      else if 'A' ≤ c ∧ c ≤ 'F' then some (c.toNat - 'A'.toNat + 10)
      else none
    match n, d with
    | some n, some d => some (16 * n + d)
    | _, _ => none) (some 0)

/-- The character with a number, if there is one. -/
def charAt? (n : Nat) : Option Char :=
  if n.isValidChar then some (Char.ofNat n) else none

/-- What follows a backslash: a character, and how many characters write it. -/
def escape? : List Char → Option (Char × Nat)
  | [] => none
  | c :: rest =>
    let digits := if c = 'x' then 2 else if c = 'u' then 4 else if c = 'U' then 8 else 0
    if digits = 0 then (shortEscapes.lookup c).map (·, 1)
    else if (rest.take digits).length < digits then none
    else ((hexValue? (rest.take digits)).bind charAt?).map (·, 1 + digits)

/-- The rest of a scalar in quotes, the last character first. `text` is what was read before;
`inWord` tells whether the character before was no gap. -/
def Cursor.quotedFrom (single : Bool) : Nat → List Char → Bool → Cursor →
    Except Problem (List Char × Cursor)
  | 0, _, _, _ => .error .unclosedQuote
  | n + 1, text, inWord, c => do
    c.need (if inWord then 2 else 4)
    if !inWord && c.atAnyMark then throw .markInQuote
    match c.rest with
    | [] => throw .unclosedQuote
    | ch :: rest =>
      if isGap ch then
        let (run, c) ← c.gap
        c.quotedFrom single n ((Gap.ofRun run).folded.reverse ++ text) false
      else if single then
        if ch != '\'' then c.step.quotedFrom single n (ch :: text) true
        else if rest.head? == some '\'' then (c.skip 2).quotedFrom single n ('\'' :: text) true
        else return (text, c.step)
      else if ch == '"' then return (text, c.step)
      else if ch != '\\' then c.step.quotedFrom single n (ch :: text) true
      else if rest.head?.any isBreak then
        c.need 3
        let (run, c) ← (← c.step.skipBreak).gap
        c.quotedFrom single n ((breakValues run).reverse ++ text) false
      else
        match escape? rest with
        | none => throw .badEscape
        | some (e, length) => (c.skip (1 + length)).quotedFrom single n (e :: text) true

/-- A scalar in quotes, and the place behind it; the opening quote is ahead. -/
def Cursor.quoted (c : Cursor) (single : Bool) : Except Problem (String × Cursor) := do
  let (text, c) ← c.step.quotedFrom single (c.rest.length + 1) [] false
  return (String.ofList text.reverse, c)

/-! ### Scalars in lines of their own -/

/-- What becomes of the line breaks at the end. -/
inductive Chomp
  /-- None is kept. -/
  | strip
  /-- The first one is kept. -/
  | clip
  /-- All are kept. -/
  | keep
deriving DecidableEq, Repr

/-- What the mark of a scalar in lines of their own says: what becomes of the last line breaks, and
how far the lines are indented more than what is around them. -/
structure BlockStyle where
  isLiteral : Bool
  chomp : Chomp
  indent : Option Nat

/-- A sign that tells what becomes of the last line breaks. -/
def chompMark? (c : Cursor) : Option Chomp :=
  if c.head? = some '-' then some .strip else if c.head? = some '+' then some .keep else none

/-- A digit that tells how far lines are indented. -/
def indentMark? (c : Cursor) : Except Problem (Option Nat) :=
  match c.head? with
  | some ch =>
    if ch = '0' then .error .badIndent
    else .ok (if ch.isDigit then some (ch.toNat - '0'.toNat) else none)
  | none => .ok none

/-- What the mark ahead says, and the place behind its line. -/
def Cursor.blockStyle (c : Cursor) (isLiteral : Bool) : Except Problem (BlockStyle × Cursor) := do
  let c := c.step
  c.need 1
  let (before, c) := match chompMark? c with
    | some chomp => (some chomp, c.step)
    | none => (none, c)
  c.need 1
  let indent ← indentMark? c
  let c := if indent.isSome then c.step else c
  c.need 1
  let (behind, c) := match chompMark? c with
    | some chomp => if before.isNone && indent.isSome then (some chomp, c.step) else (none, c)
    | none => (none, c)
  let (_, c) ← c.span isBlank
  let (_, c) ← if c.head? = some '#' then c.span (!isBreak ·) else pure ([], c)
  let chomp := (before.or behind).getD .clip
  match c.head? with
  | none => return (⟨isLiteral, chomp, indent⟩, c)
  | some ch =>
    if isBreak ch then return (⟨isLiteral, chomp, indent⟩, ← c.skipBreak)
    else throw .strayMark

/-- The lines ahead that hold nothing but spaces: what their breaks stand for, the last one first,
the widest of them, and the place in the first line that holds more. `indent` is how many spaces
each line may hold; where it is not known, all spaces are taken. -/
def Cursor.emptyLines (indent : Option Nat) : Nat → Nat → List Char → Cursor →
    Except Problem (Nat × List Char × Cursor)
  | 0, widest, breaks, c => .ok (widest, breaks, c)
  | n + 1, widest, breaks, c => do
    let spaces := (c.rest.takeWhile (· == ' ')).length
    let c := c.skip (match indent with
      | some k => min spaces (k - c.column)
      | none => spaces)
    c.need 1
    let widest := max widest c.column
    match c.head? with
    | none => return (widest, breaks, c)
    | some ch =>
      if ch = '\t' ∧ indent.all (c.column < ·) then throw .strayTab
      else if isBreak ch then
        let next ← c.skipBreak
        next.emptyLines indent n widest (breakValues [ch] ++ breaks)
      else return (widest, breaks, c)

/-- What stands between two lines: `first` is the break behind the line before, `more` those of the
lines that hold nothing. Where lines are folded, a single break is a space, unless one of the two
lines starts with a blank. -/
def betweenLines (folds : Bool) (first more : List Char) : List Char :=
  if folds && first == ['\n'] then (if more.isEmpty then [' '] else more) else first ++ more

/-- The lines of a scalar in the column `indent`, the last character first, and the breaks behind
its last line. -/
def Cursor.blockLines (isLiteral : Bool) (indent : Nat) :
    Nat → List Char → List Char → List Char → Bool → Cursor →
    Except Problem (List Char × List Char × List Char × Cursor)
  | 0, text, first, more, _, c => .ok (text, first, more, c)
  | n + 1, text, first, more, blankBefore, c => do
    if c.column ≠ indent ∨ c.rest.isEmpty then return (text, first, more, c)
    let blank := c.head?.any isBlank
    let between := betweenLines (!isLiteral && !blankBefore && !blank) first more
    let (line, c) ← c.span (!isBreak ·)
    let text := line.reverse ++ (between.reverse ++ text)
    c.need 2
    let first := breakValues (c.rest.take 1)
    let c ← if c.rest.isEmpty then pure c else c.skipBreak
    let (_, more, c) ← c.emptyLines (some indent) (c.rest.length + 1) 0 []
    c.blockLines isLiteral indent n text first more.reverse blank

/-- A scalar in lines of their own, and the place behind it; its mark is ahead. `column` is that of
the block around it, if there is one. -/
def Cursor.block (c : Cursor) (isLiteral : Bool) (column : Option Nat) :
    Except Problem (String × Cursor) := do
  let (style, c) ← c.blockStyle isLiteral
  let given := style.indent.map (column.getD 0 + ·)
  let (widest, breaks, c) ← c.emptyLines given (c.rest.length + 1) 0 []
  let indent := given.getD (max widest (max (column.elim 0 (· + 1)) 1))
  let (text, first, more, c) ←
    c.blockLines isLiteral indent (c.rest.length + 1) [] [] breaks.reverse false
  let ending := match style.chomp with
    | .strip => []
    | .clip => first
    | .keep => first ++ more
  return (String.ofList (text.reverse ++ ending), c)

end Forwarder.Yaml
