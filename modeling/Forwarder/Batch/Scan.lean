/-
**Scanning.** The source files that a run looks at.

A pattern names a directory; with `/...` at its end it stands for the whole tree below it.

* `Pattern.ofText` — a pattern as it is written.
* `Disk.scan` — the source files of several patterns, in order and each once.
-/

import Forwarder.Files.Collect

namespace Forwarder

/-- A directory whose source files are looked at, alone or with the tree below it. -/
structure Pattern where
  base : String
  recursive : Bool
deriving DecidableEq, Repr

/-- A pattern as it is written. -/
def Pattern.ofText (text : String) : Pattern :=
  if Text.endsIn text "/..." then
    let base := Text.dropEnding text "/..."
    ⟨if base.isEmpty then "." else base, true⟩
  else if text = "..." then ⟨".", true⟩
  else ⟨text, false⟩

/-- The walk that a pattern asks for. -/
def Pattern.walking (pattern : Pattern) : Walking where
  wanted := isSourceFile
  entered := if pattern.recursive then isEntered else fun _ => false

namespace Disk

/-- A pattern that names no directory. -/
def noDirectory (base root : String) : Failure :=
  (Failure.ofCode .fileSystem ("source directory not found: " ++ base))
    |>.withContext "path" (.text root)
    |>.withHints ["Check that the directory exists and is readable"]

/-- The source files of one pattern, under absolute paths. -/
def scanOne (d : Disk) (pattern : Pattern) : Except Failure (List String) :=
  let root := Path.absolute d.cwdText pattern.base
  if d.isDir root then
    match d.collect pattern.walking [root] with
    | .ok paths => .ok paths
    | .error failure => .error (.fileSystem "scan" root (some failure))
  else .error (noDirectory pattern.base root)

/-- The source files of each of the patterns. -/
def scanAll (d : Disk) : List String → Except Failure (List String)
  | [] => .ok []
  | text :: texts =>
    match d.scanOne (.ofText text) with
    | .error failure => .error failure
    | .ok found =>
      match d.scanAll texts with
      | .error failure => .error failure
      | .ok more => .ok (found ++ more)

/-- The source files of the patterns, in order and each once. -/
def scan (d : Disk) (patterns : List String) : Except Failure (List String) :=
  match d.scanAll patterns with
  | .error failure => .error failure
  | .ok paths => .ok (Text.sortedUnique paths)

end Disk

end Forwarder
