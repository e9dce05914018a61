/-
**Output.** Where generated units go: below an output root, or onto the screen in a dry run.

* `Output.place` — the path of a unit, always below the root.
* `Output.write` — writes or prints a unit.
-/

import Forwarder.Files.Writing
import Forwarder.Forwarding

namespace Forwarder

/-- Where generated units go. -/
structure Output where
  root : String
  dryRun : Bool
deriving DecidableEq, Repr

namespace Output

/-- The path of a unit. -/
def place (out : Output) (u : GeneratedUnit) : Except Failure String :=
  match within out.root u.relativePath with
  | .ok path => .ok path
  | .error failure =>
    .error ((Failure.caused .fileSystem failure.text (some failure)).withContext "class"
      (.text u.className))

/-- A unit as a dry run prints it. -/
def preview (path : String) (u : GeneratedUnit) : String :=
  "// " ++ path ++ "\n" ++ u.source

/-- What became of a unit: its path or a failure, what was printed, and the disk after it. -/
structure Written where
  path : Except Failure String
  printed : String
  disk : Disk

/-- Writes a unit, or prints it in a dry run. -/
def write (out : Output) (d : Disk) (u : GeneratedUnit) : Written :=
  match out.place u with
  | .error failure => ⟨.error failure, "", d⟩
  | .ok path =>
    if out.dryRun then ⟨.ok path, preview path u, d⟩
    else
      match d.write path u.source with
      | (.ok (), d) => ⟨.ok path, "", d⟩
      | (.error failure, d) => ⟨.error (.fileSystem "write" path (some failure)), "", d⟩

end Output

end Forwarder
