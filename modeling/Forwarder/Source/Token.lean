/-
**Tokens.** The words of a source text, each with the place where it stands.

* `Position.advance` — the place after a stretch of text; `advance_append` makes it additive.
* `Token` — a kind, the text it covers and its place.
-/

namespace Forwarder.Source

/-- A place in a source text: the line, and the character within the line, both counted from one. -/
structure Position where
  line : Nat
  column : Nat
deriving DecidableEq, Repr, Inhabited

namespace Position

/-- The place of the first character. -/
def start : Position :=
  ⟨1, 1⟩

/-- The place after one character. -/
def step (p : Position) (c : Char) : Position :=
  if c = '\n' then ⟨p.line + 1, 1⟩ else ⟨p.line, p.column + 1⟩

/-- The place after a stretch of text. -/
def advance (p : Position) (cs : List Char) : Position :=
  cs.foldl step p

theorem advance_append (p : Position) (front back : List Char) :
    p.advance (front ++ back) = (p.advance front).advance back :=
  List.foldl_append

/-- The place as messages write it, `line:column`. -/
def render (p : Position) : String :=
  toString p.line ++ ":" ++ toString p.column

end Position

/-- The kinds of tokens. Comments and white space separate the others and are dropped. -/
inductive TokenKind
  | comment
  | textBlock
  | string
  | character
  | annotationDecl
  | identifier
  | ellipsis
  | number
  | punctuation
  | whitespace
deriving DecidableEq, Repr

/-- The kinds that only separate. -/
def TokenKind.separates : TokenKind → Bool
  | .comment | .whitespace => true
  | _ => false

/-- A stretch of source text of one kind. -/
structure Token where
  kind : TokenKind
  text : String
  pos : Position
deriving DecidableEq, Repr

end Forwarder.Source
