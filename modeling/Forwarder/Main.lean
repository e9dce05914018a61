/-
**The program.** Carries out a command line on the files of the machine: what it may look at is read
into a disk, the tool works on that disk, and what it has changed is written back.
-/

import Forwarder.Archive.Zip
import Forwarder.Batch.RunId
import Forwarder.Command.Execute
import Forwarder.Disk.Change

namespace Forwarder

/-- What the bytes of a file hold. Bytes that are neither an archive nor a text count as an empty
text. -/
def contentOf (bytes : ByteArray) : Content :=
  let isMarked := bytes.toList.take 2 == [0x50, 0x4b]
  match if isMarked then Archive.entries? bytes else none with
  | some entries => .archive entries
  | none => .text ((String.fromUTF8? bytes).getD "")

/-- The disk with what is at a path of the machine, and below it down to a depth. -/
def gather (depth : Nat) (d : Disk) (path : String) : IO Disk := do
  try
    let place ← IO.FS.realPath path
    let stats ← place.metadata
    match depth, stats.type with
    | 0, .dir => return d.withDir path
    | depth + 1, .dir =>
      (← place.readDir).toList.foldlM (fun d entry => gather depth d (Path.join [path, entry.fileName]))
        (d.withDir path)
    | _, _ =>
      let bytes ← IO.FS.readBinFile path
      return d.withFile path ⟨contentOf bytes, .given 0⟩
  catch _ => return d

/-- How deep directories are followed. -/
def maxDepth : Nat :=
  64

/-- Makes a change to the files of the machine. -/
def Change.make : Change → IO Unit
  | .makeDir place => IO.FS.createDirAll (Path.ofComponents true place)
  | .write place text => do
    let path := Path.ofComponents true place
    IO.FS.writeFile (path ++ ".tmp") text
    IO.FS.rename (path ++ ".tmp") path
  | .remove place => IO.FS.removeFile (Path.ofComponents true place)

/-- The number of processors, as far as the system lists them. -/
def processorCount : IO Nat := do
  try
    let lines ← IO.FS.lines "/proc/cpuinfo"
    return max 1 (lines.toList.filter fun line => Text.startsBy line "processor").length
  catch _ => return 1

/-- The variables of the environment that stand for settings. -/
def settingVariables : IO (List (String × String)) :=
  (Layers.keys.map Layers.variableName).filterMapM fun name => do
    return (← IO.getEnv name).map (name, ·)

end Forwarder

open Forwarder in
/-- Runs the tool; the exit code tells whether it succeeded. -/
def main (commandLine : List String) : IO UInt32 := do
  let cwd := (← IO.currentDir).toString
  let session : Session := ⟨⟨← settingVariables, ← processorCount⟩,
    runIdOf (← IO.getRandomBytes 16).toList⟩
  let near ← gather 1 (Disk.bare (Path.components cwd)) cwd
  let gatherAll (depth : Nat) (d : Disk) : IO Disk :=
    (pathsOf session d commandLine).foldlM (fun d path => gather depth d (Path.absolute cwd path)) d
  let disk ← gatherAll maxDepth (← gatherAll 1 near)
  let result := execute session disk commandLine
  (disk.changesTo result.disk).forM Change.make
  IO.print result.printed.out
  IO.eprint result.printed.err
  match result.failure with
  | none => return 0
  | some failure =>
    if !result.told then IO.eprintln ("Error: " ++ failure.text)
    return 1
