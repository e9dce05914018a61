/-
**Lists with commas.** Several texts in one, divided by commas. A part that holds a comma itself
stands between double quotes, and a quote inside such a part is written twice.

Only the first line that is not empty counts; between quotes a part may go on over lines.

* `readCommaList` — the parts of a text.
* `rewritten` — what is left of parts that are written as a list and read again.
-/

import Forwarder.Text.Pieces

namespace Forwarder.Text

/-- A place in a text: line, and column in bytes, both from one. -/
structure Spot where
  line : Nat
  column : Nat
deriving DecidableEq, Repr

/-- The place behind a character that ends no line. -/
def Spot.behind (spot : Spot) (c : Char) : Spot :=
  { spot with column := spot.column + c.utf8Size }

/-- Why a text is no list. -/
inductive ListFault
  /-- There is no line with anything on it. -/
  | nothing
  /-- A quote stands in a part without quotes. -/
  | bareQuote (start : Nat) (spot : Spot)
  /-- A quoted part ends too early or not at all. -/
  | looseQuote (start : Nat) (spot : Spot)
deriving DecidableEq, Repr

/-- The place of a fault in the list that starts on a line. -/
def spotText (start : Nat) (spot : Spot) : String :=
  (if start = spot.line then "" else "record on line " ++ toString start ++ "; ") ++
    "parse error on line " ++ toString spot.line ++ ", column " ++ toString spot.column

/-- The fault as it is reported. -/
def ListFault.message : ListFault → String
  | nothing => "EOF"
  | bareQuote start spot => spotText start spot ++ ": bare \" in non-quoted field"
  | looseQuote start spot => spotText start spot ++ ": extraneous or missing \" in quoted-field"

/-- Where in a part the reading stands; characters of the part come last first. -/
inductive PartState
  | fresh
  | bare (part : List Char)
  | inQuotes (part : List Char)
  /-- Behind a quote that may end the part, with the place of the quote. -/
  | closing (part : List Char) (quote : Spot)

/-- A part in front of the parts that follow. -/
def partThen (part : List Char) (rest : Except ListFault (List String)) :
    Except ListFault (List String) :=
  match rest with
  | .ok parts => .ok (String.ofList part.reverse :: parts)
  | .error fault => .error fault

/-- The parts of a list, from a place in it. -/
def readParts (start : Nat) : PartState → Spot → List Char → Except ListFault (List String)
  | .fresh, _, [] => partThen [] (.ok [])
  | .fresh, spot, c :: cs =>
    if c = '"' then readParts start (.inQuotes []) (spot.behind c) cs
    else if c = ',' then partThen [] (readParts start .fresh (spot.behind c) cs)
    else if c = '\n' then partThen [] (.ok [])
    else readParts start (.bare [c]) (spot.behind c) cs
  | .bare part, _, [] => partThen part (.ok [])
  | .bare part, spot, c :: cs =>
    if c = '"' then .error (.bareQuote start spot)
    else if c = ',' then partThen part (readParts start .fresh (spot.behind c) cs)
    else if c = '\n' then partThen part (.ok [])
    else readParts start (.bare (c :: part)) (spot.behind c) cs
  | .inQuotes _, spot, [] => .error (.looseQuote start spot)
  | .inQuotes part, spot, c :: cs =>
    if c = '"' then readParts start (.closing part spot) (spot.behind c) cs
    else if c = '\n' ∧ cs ≠ [] then
      readParts start (.inQuotes (c :: part)) ⟨spot.line + 1, 1⟩ cs
    else readParts start (.inQuotes (c :: part)) (spot.behind c) cs
  | .closing part _, _, [] => partThen part (.ok [])
  | .closing part quote, spot, c :: cs =>
    if c = '"' then readParts start (.inQuotes (c :: part)) (spot.behind c) cs
    else if c = ',' then partThen part (readParts start .fresh (spot.behind c) cs)
    else if c = '\n' then partThen part (.ok [])
    else .error (.looseQuote start quote)

/-- Line ends of two characters become one. -/
def singleBreaks : List Char → List Char
  | [] => []
  | '\r' :: '\n' :: cs => '\n' :: singleBreaks cs
  | c :: cs => c :: singleBreaks cs

/-- A carriage return at the very end is dropped. -/
def dropReturn (cs : List Char) : List Char :=
  if cs.getLast? = some '\r' then cs.dropLast else cs

/-- The parts of a text; an empty text has none. -/
def readCommaList (s : String) : Except ListFault (List String) :=
  if s.isEmpty then .ok []
  else
    let cs := dropReturn (singleBreaks s.toList)
    let skipped := cs.takeWhile (· == '\n')
    match cs.dropWhile (· == '\n') with
    | [] => .error .nothing
    | rest => readParts (skipped.length + 1) .fresh ⟨skipped.length + 1, 1⟩ rest

/-- What is left of parts that are written as a list and read again: line ends become single
characters, and one empty part alone leaves nothing. -/
def rewritten : List String → List String
  | [""] => []
  | parts => parts.map fun part => String.ofList (singleBreaks part.toList)

end Forwarder.Text
