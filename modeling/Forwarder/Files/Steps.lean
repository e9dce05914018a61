/-
**Writing in steps.** Directories are made one after the other, the text goes into a new file under a
temporary name, and this file is given its own name in the end. The system may refuse any of these steps.
Then the file under its temporary name is removed, and what has been made of the directories stays.

* `WriteStep`, `Treatment` — the steps, and how the system treats them.
* `Disk.replaceInSteps` — `Disk.replace`, step by step.
* `Disk.writeInSteps` — `Disk.write`, step by step.
-/

import Forwarder.Files.Writing

namespace Forwarder

/-- What is done to write a file in a directory that is there. -/
inductive WriteStep
  | create
  | fill
  | flush
  | close
  | rename
deriving DecidableEq, Repr

/-- How the system treats the writing of one file. -/
structure Treatment where
  /-- What the system puts at the end of the temporary name. -/
  ending : String
  /-- How many directories are gone through before making them fails, and why, if it does. -/
  room : Option (Nat × Failure)
  /-- Why a step fails, if it does. That the temporary path is too long is a reason for the first. -/
  refusal : WriteStep → Option Failure

namespace Treatment

/-- Nothing fails that can be done. -/
def fair (ending : String) : Treatment :=
  ⟨ending, none, fun _ => none⟩

/-- The temporary name. -/
def name (t : Treatment) : String :=
  ".tmp-" ++ t.ending

end Treatment

namespace Disk

/-- Creates a directory and all those above it, unless making them fails on the way. -/
def makeDirsInSteps (d : Disk) (room : Option (Nat × Failure)) (dir : String) : Option Failure × Disk :=
  match room with
  | none =>
    let (obstacle, d) := d.makeDirs dir
    (obstacle.map .system, d)
  | some (count, failure) =>
    let (obstacle, d) := d.makeEach ((Path.ancestors dir).take count)
    (some ((obstacle.map .system).getD failure), d)

/-- Gives the file at a place the name that a path says. It takes the place of a file there, but not that
of a directory. -/
def rename (d : Disk) (place : Place) (file : File) (temporary path : String) : Except SystemFault Disk :=
  let refused := SystemFault.mk "rename" [temporary, path]
  match d.resolve path, d.target path with
  | .ok .dir, _ => .error (refused .exists)
  | _, .error refusal => .error (refused refusal)
  | _, .ok goal => .ok ((d.drop place).put goal (.file file))

/-- Writes a text to a path, in the directory `dir` that is known to be there. Only a new file is written
to, and if anything fails it is removed again, which does not fail for a file that was just made. -/
def replaceInSteps (d : Disk) (t : Treatment) (dir path text : String) : Option Failure × Disk :=
  let temporary := (if Text.endsIn dir "/" then dir else dir ++ "/") ++ t.name
  match d.place dir with
  | .error refusal => (some (.system (fault "open" temporary refusal)), d)
  | .ok above =>
    let place := above ++ [t.name]
    match t.refusal .create, d.entry? place with
    | some failure, _ => (some failure, d)
    | none, some _ => (some (.system (fault "open" temporary .exists)), d)
    | none, none =>
      let created := d.put place (.file ⟨.text "", .tick d.clock⟩)
      match t.refusal .fill with
      | some failure => (some failure, created.drop place)
      | none =>
        let file : File := ⟨.text text, .tick d.clock⟩
        let filled := created.put place (.file file)
        match (t.refusal .flush).or ((t.refusal .close).or (t.refusal .rename)) with
        | some failure => (some failure, filled.drop place)
        | none =>
          match filled.rename place file temporary path with
          | .error fault => (some (.system fault), filled.drop place)
          | .ok renamed => (none, { renamed with clock := d.clock + 1 })

/-- Writes a text to a path and creates the directories above it. When anything fails the directories
that were made stay, and every file is as before. -/
def writeInSteps (d : Disk) (t : Treatment) (path text : String) : Except Failure Unit × Disk :=
  match checkedPath path with
  | .error failure => (.error (.fileSystem "resolve path" path (some failure)), d)
  | .ok clean =>
    let dir := Path.dir clean
    match d.makeDirsInSteps t.room dir with
    | (some failure, d) => (.error (.fileSystem "create directory" dir (some failure)), d)
    | (none, d) =>
      match d.replaceInSteps t dir clean text with
      | (some failure, d) => (.error (.fileSystem "write" clean (some failure)), d)
      | (none, d) => (.ok (), d)

end Disk

end Forwarder
