/-
**Extraction.** The decorator declarations of files.

A file that does not look like a declaration is passed over without being parsed.

* `Reader.extract` — the declaration of one file.
* `Extraction` — what came of extracting: the declarations, and the reader with what it has read.
* `Reader.extractAll` — the declarations of files, one after the other.
-/

import Forwarder.Decoration.Candidate
import Forwarder.Decoration.Extract

namespace Forwarder

/-- The declarations of files, each beside its path, and what has been read for them. -/
structure Extraction where
  declared : List (String × Attempt Decoration)
  reader : Reader

namespace Reader

/-- The declaration in the file at a path. It is empty for a file that holds none. -/
def extract (r : Reader) (d : Disk) (path : String) : Attempt Decoration × Reader :=
  match r.isDecoratable d path with
  | (.error failure, r) => (.failed failure, r)
  | (.ok false, r) => (.empty, r)
  | (.ok true, r) =>
    match r.readText d path with
    | (.error failure, r) => (.failed (.unreadable path (some failure)), r)
    | (.ok text, r) => (Decoration.read path text, r)

/-- The declarations of files, in the order of the files. -/
def extractAll (r : Reader) (d : Disk) : List String → Extraction
  | [] => ⟨[], r⟩
  | path :: paths =>
    let (attempt, r) := r.extract d path
    let rest := r.extractAll d paths
    { rest with declared := (path, attempt) :: rest.declared }

end Reader

end Forwarder
