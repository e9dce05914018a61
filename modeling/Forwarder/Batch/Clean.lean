/-
**Cleaning.** Removing the files that earlier runs have generated.

A generated file is known by its first line, so a file written by hand is never removed.

* `Disk.isGenerated` — the file at a path was generated.
* `Disk.clean` — removes the generated files below directories.
-/

import Forwarder.Batch.Scan
import Forwarder.Disk.Change
import Forwarder.Files.CheckedPath
import Forwarder.Forwarding

namespace Forwarder

/-- What has been removed, what stopped the removing, and the disk after it. -/
structure Cleaning where
  removed : List String
  failure : Option Failure
  disk : Disk

namespace Disk

/-- How many bytes of a file are searched for its first line. -/
def headerLimit : Int :=
  4096

/-- The file at a path is a source file and starts with the line that marks generated files. -/
def isGenerated (d : Disk) (path : String) : Bool :=
  isSourceFile (Path.base path) &&
    match d.firstLine path headerLimit with
    | .ok line => line == Forwarding.headerLine
    | .error _ => false

/-- The generated files below a directory, in order. A directory that is not there has none. -/
def generatedBelow (d : Disk) (root : String) : List String :=
  match d.walk root (fun _ => true) true with
  | .ok paths => paths.filter d.isGenerated
  | .error _ => []

/-- Removes files one after the other, up to the first that cannot be removed. -/
def removeEach (d : Disk) : List String → Cleaning
  | [] => ⟨[], none, d⟩
  | path :: paths =>
    match d.remove path with
    | .error fault =>
      ⟨[], some (.processing ("file removal " ++ path) (.system fault)), d⟩
    | .ok d =>
      let rest := d.removeEach paths
      { rest with removed := path :: rest.removed }

/-- Removes the generated files below each of the directories. -/
def cleanEach (d : Disk) : List String → Cleaning
  | [] => ⟨[], none, d⟩
  | root :: roots =>
    let first := d.removeEach (d.generatedBelow root)
    match first.failure with
    | some _ => first
    | none =>
      let rest := first.disk.cleanEach roots
      { rest with removed := first.removed ++ rest.removed }

/-- Removes the generated files below the directories of patterns. -/
def clean (d : Disk) (patterns : List String) : Cleaning :=
  let done := d.cleanEach (patterns.map fun text => (Pattern.ofText text).base)
  { done with
    failure := done.failure.map fun cause =>
      .caused .fileSystem "failed to clean generated files" (some cause) }

end Disk

end Forwarder
