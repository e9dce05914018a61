/-
**Blanks.** Two notions of white space, and the trimming and splitting built on the wider one.

* `isBlank` — the Unicode property `White_Space`; `trim` and `fields` use it.
* `isGap` — the five ASCII characters that separate tokens in source text.
-/

import Forwarder.Text.Ranges

namespace Forwarder.Text

/-- White space of any script. -/
def blankRanges : Ranges :=
  [(0x9, 0xd), (0x20, 0x20), (0x85, 0x85), (0xa0, 0xa0), (0x1680, 0x1680), (0x2000, 0x200a),
    (0x2028, 0x2029), (0x202f, 0x202f), (0x205f, 0x205f), (0x3000, 0x3000)]

/-- A white-space character of any script. -/
def isBlank (c : Char) : Bool :=
  blankRanges.holds c

/-- A character that separates tokens: tab, line feed, form feed, carriage return or space. -/
def isGap (c : Char) : Bool :=
  c == '\t' || c == '\n' || c == '\x0c' || c == '\r' || c == ' '

/-- A character of a word in the narrow sense: an ASCII letter or digit, or an underscore. -/
def isWordChar (c : Char) : Bool :=
  c.isAlphanum || c == '_'

/-- Drops characters satisfying the test from the end. -/
def dropRight (test : Char → Bool) (cs : List Char) : List Char :=
  (cs.reverse.dropWhile test).reverse

/-- The characters between the first and the last one that is not blank. -/
def trimChars (cs : List Char) : List Char :=
  dropRight isBlank (cs.dropWhile isBlank)

/-- A text without the blanks around it. -/
def trim (s : String) : String :=
  String.ofList (trimChars s.toList)

/-- The maximal runs of characters failing the test, `word` being the run read so far. -/
def runsFrom (test : Char → Bool) (word : List Char) : List Char → List (List Char)
  | [] => if word.isEmpty then [] else [word]
  | c :: rest =>
    if test c then
      (if word.isEmpty then runsFrom test [] rest else word :: runsFrom test [] rest)
    else runsFrom test (word ++ [c]) rest

/-- The words of a text: its maximal runs without a blank. -/
def fields (s : String) : List String :=
  (runsFrom isBlank [] s.toList).map String.ofList

end Forwarder.Text
