/-
**Libraries.** Where the declarations of types are found.

* `SourcePlace` — a source file, or an entry of an archive.
* `Library` — what a source path answers: the place of a type, and the declarations at a place.
* `Library.declaration` — the declaration of a type, or why there is none.
-/

import Forwarder.Failure
import Forwarder.Source.Declaration
import Forwarder.TypeName

namespace Forwarder

open Source

/-- A source file, or an entry of an archive. -/
inductive SourcePlace
  | file (path : String)
  | entry (archive name : String)
deriving DecidableEq, Repr

/-- The place as it is reported. -/
def SourcePlace.render : SourcePlace → String
  | .file path => path
  | .entry archive name => archive ++ "!/" ++ name

/-- What a source path answers. -/
structure Library where
  /-- The place of a type, if it has one. -/
  locate : String → Except Failure (Option SourcePlace)
  /-- The declarations at a place. -/
  unitAt : SourcePlace → Except Failure CompilationUnit

namespace Library

/-- The type has a place. -/
def holds (lib : Library) (name : String) : Bool :=
  match lib.locate name with
  | .ok (some _) => true
  | _ => false

/-- The declaration of a type, with the file around it. -/
def declaration (lib : Library) (name : String) : Except Failure (CompilationUnit × TypeDecl) :=
  match lib.locate name with
  | .error failure => .error (.typeNotFound name (some failure))
  | .ok none => .error (.typeNotFound name none)
  | .ok (some place) =>
    let unfound (cause : Option Failure) :=
      (Failure.typeNotFound name cause).withContext "source" (.text place.render)
    match lib.unitAt place with
    | .error failure => .error (unfound (some failure))
    | .ok u =>
      match u.findType? (TypeName.simpleName name) with
      | none => .error (unfound none)
      | some decl => .ok (u, decl)

end Library

end Forwarder
