/-
**Reading a source file.** From text to declarations: the text is split into tokens first, so a
stretch that is no token at all is reported before anything the grammar has to say.

* `parse` — the declarations of a file, or where and why the text is no such file.
-/

import Forwarder.Failure
import Forwarder.Source.Lexeme
import Forwarder.Source.Productions

namespace Forwarder.Source

/-- Where and why a text cannot be read. -/
structure ParseFailure where
  pos : Position
  detail : String
deriving DecidableEq, Repr

/-- The failure with its place in front. -/
def ParseFailure.render (e : ParseFailure) : String :=
  e.pos.render ++ ": " ++ e.detail

/-- The declarations of a source text. -/
def parse (text : String) : Except ParseFailure CompilationUnit :=
  match lex text.toList with
  | .error (pos, detail) => .error ⟨pos, detail⟩
  | .ok (tokens, finish) =>
    match declarations.read .compilationUnit tokens finish with
    | .error e => .error ⟨e.pos, e.message⟩
    | .ok u => .ok u

/-- A source text that cannot be read, as a failure that names its file. -/
def ParseFailure.failure (e : ParseFailure) (file : String) : Failure :=
  let place := if file.isEmpty then "" else file ++ ":"
  .malformed file e.pos.line e.pos.column e.render (some (.plain (place ++ e.render)))

/-- The declarations in the text of a file. -/
def parseFile (file text : String) : Except Failure CompilationUnit :=
  match parse text with
  | .ok u => .ok u
  | .error e => .error (e.failure file)

end Forwarder.Source
