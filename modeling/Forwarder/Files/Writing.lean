/-
**Writing and removing.** Changes of files under checked paths.

* `Disk.write` — a file with all the directories above it, written in one step.
* `Disk.removeFile` — removes what is at a path.
-/

import Forwarder.Disk.Change
import Forwarder.Files.CheckedPath

namespace Forwarder.Disk

/-- Writes a text to a path and creates the directories above it. When the writing fails the
directories stay, and every file is as before. -/
def write (d : Disk) (path text : String) : Except Failure Unit × Disk :=
  match checkedPath path with
  | .error failure => (.error (.fileSystem "resolve path" path (some failure)), d)
  | .ok clean =>
    let dir := Path.dir clean
    match d.makeDirs dir with
    | (some fault, d) => (.error (.fileSystem "create directory" dir (some (.system fault))), d)
    | (none, d) =>
      match d.replace dir clean text with
      | .error fault => (.error (.fileSystem "write" clean (some (.system fault))), d)
      | .ok d => (.ok (), d)

/-- Removes the file or the empty directory at a path. -/
def removeFile (d : Disk) (path : String) : Except Failure Disk :=
  match d.existingPath path with
  | .error failure => .error failure
  | .ok clean =>
    match d.remove clean with
    | .error fault => .error (.fileSystem "remove" clean (some (.system fault)))
    | .ok d => .ok d

end Forwarder.Disk
