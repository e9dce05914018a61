/-
**Readers.** Reading and parsing files, each of them once as long as it does not change.

* `Reader.readText` — the text of a file.
* `Reader.parseFile` — the declarations of a source file.
* `Reader.forget`, `Reader.clear` — dropping what is kept, of one file or altogether.
-/

import Forwarder.Cache
import Forwarder.Files.CheckedPath
import Forwarder.Source.Parse

namespace Forwarder

/-- What has been read and parsed so far, by clean paths. -/
structure Reader where
  units : Cache Source.CompilationUnit
  contents : Cache String

namespace Reader

/-- Nothing has been read. -/
def fresh : Reader :=
  ⟨.empty, .empty⟩

/-- The clean spelling of a path that can be read. -/
def readable (d : Disk) (path : String) : Except Failure String :=
  if path.isEmpty then
    .error (.within "file path " (.invalid "filePath" "cannot be empty"))
  else
    let clean := Path.clean path
    if climbs clean then .error (climbing path)
    else
      match d.stat clean with
      | .ok _ => .ok clean
      | .error fault =>
        if fault.refusal = .missing then
          .error (.within ("file does not exist: " ++ clean ++ ": ") (.system fault))
        else .error (.system fault)

/-- A cache with the value for a file, or without it when the file is gone. -/
def kept {α : Type} (cache : Cache α) (d : Disk) (path : String) (value : α) : Cache α :=
  match cache.setFor d path path value with
  | .ok cache => cache
  | .error _ => cache

/-- The failure of reading a file. -/
def readFailure (clean : String) (fault : SystemFault) : Failure :=
  .within ("failed to read file " ++ Path.base clean ++ ": ") (.system fault)

/-- The text of a file. -/
def readText (r : Reader) (d : Disk) (path : String) : Except Failure String × Reader :=
  match readable d path with
  | .error failure => (.error failure, r)
  | .ok clean =>
    match r.contents.getFor? d clean clean with
    | (some text, contents) => (.ok text, { r with contents })
    | (none, contents) =>
      match d.readFile clean with
      | .error fault =>
        (.error (readFailure clean fault), { r with contents })
      | .ok text => (.ok text, { r with contents := kept contents d clean text })

/-- The declarations of a source file. -/
def parseFile (r : Reader) (d : Disk) (path : String) :
    Except Failure Source.CompilationUnit × Reader :=
  match readable d path with
  | .error failure => (.error failure, r)
  | .ok clean =>
    match r.units.getFor? d clean clean with
    | (some unit, units) => (.ok unit, { r with units })
    | (none, units) =>
      match readText { r with units } d clean with
      | (.error failure, r) => (.error failure, r)
      | (.ok text, r) =>
        match Source.parseFile clean text with
        | .error failure => (.error failure, r)
        | .ok unit => (.ok unit, { r with units := kept r.units d clean unit })

/-- Forgets what is known of one file. -/
def forget (r : Reader) (path : String) : Reader :=
  ⟨r.units.delete (Path.clean path), r.contents.delete (Path.clean path)⟩

/-- Forgets everything. -/
def clear (_ : Reader) : Reader :=
  fresh

end Reader

end Forwarder
