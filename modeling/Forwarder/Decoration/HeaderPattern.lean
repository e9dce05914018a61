/-
**The header pattern.** A quick look at a source text, before it is parsed: does it hold the word
`class`, later the word `implements`, and later `Decorator` with a type argument list? White space
and comments may stand between `Decorator` and its opening bracket.

Words are delimited in the narrow sense: by anything but ASCII letters, digits and underscores.

* `matchesDecorator` — the test.
-/

import Forwarder.Text.Blank

namespace Forwarder.HeaderPattern

open Text (isGap isWordChar)

/-- The character is missing or no word character. -/
def delimits (c : Option Char) : Bool :=
  !c.any isWordChar

/-- What follows the first occurrence of a word as a whole word. -/
def afterWord? (word : List Char) (before : Option Char) : List Char → Option (List Char)
  | [] => none
  | c :: rest =>
    if delimits before && word.isPrefixOf (c :: rest) &&
        delimits ((c :: rest).drop word.length).head? then
      some ((c :: rest).drop word.length)
    else afterWord? word (some c) rest

/-- What a text can be read as: white space and comments in front of an opening bracket (`gap`),
the same from within a block comment (`block`) or from within a line comment (`line`). A block
comment may end at any of its closing marks. -/
structure Gap where
  gap : Bool
  block : Bool
  line : Bool
deriving DecidableEq, Repr

/-- What the empty text can be read as. -/
def Gap.none : Gap :=
  ⟨false, false, false⟩

/-- What a text can be read as, and what it can be read as after its first character. -/
def gaps : List Char → Gap × Gap
  | [] => (Gap.none, Gap.none)
  | c :: rest =>
    let (here, next) := gaps rest
    let follows := fun mark : Char => rest.head? == some mark
    (⟨c == '<' || (isGap c && here.gap) || (c == '/' && follows '*' && next.block) ||
          (c == '/' && follows '/' && next.line),
        (c == '*' && follows '/' && next.gap) || here.block,
        if c == '\n' then here.gap else here.line⟩,
      here)

/-- `Decorator` stands somewhere in the text at the start of a word, with a type argument list. -/
def namesDecorator (before : Option Char) : List Char → Bool
  | [] => false
  | c :: rest =>
    let word := "Decorator".toList
    (delimits before && word.isPrefixOf (c :: rest) &&
        (gaps ((c :: rest).drop word.length)).1.gap) ||
      namesDecorator (some c) rest

/-- The text may hold a decorator declaration. -/
def matchesDecorator (text : String) : Bool :=
  match afterWord? "class".toList none text.toList with
  | none => false
  | some rest =>
    match afterWord? "implements".toList (some 's') rest with
    | none => false
    | some rest => namesDecorator (some 's') rest

end Forwarder.HeaderPattern
