/-
**Changing a disk.** Creating directories, writing and removing files, and what has to be done to one disk to
get another.

* `Disk.put`, `Disk.drop` — the two elementary changes, each of one place.
* `Disk.makeDirs` — a directory and all those above it.
* `Disk.install` — gives a written text its name; `Disk.replace` — writes a file in one step.
* `Disk.remove` — removes a file or an empty directory.
* `Disk.changesTo` — the changes between two disks, in an order in which they can be made.
-/

import Forwarder.Disk.Basic

namespace Forwarder.Disk

/-- An entry at a place, instead of the one that was there. -/
def put (d : Disk) (place : Place) (entry : Entry) : Disk :=
  { d with entries := d.entries.filter (·.1 != place) ++ [(place, entry)] }

/-- No entry at a place. -/
def drop (d : Disk) (place : Place) : Disk :=
  { d with entries := d.entries.filter (·.1 != place) }

/-- The place that a path names, whether or not anything is there, when the directory above it is
there. -/
def target (d : Disk) (path : String) : Except Refusal Place :=
  match refusedPath? path, d.place (Path.dir path) with
  | some refusal, _ => .error refusal
  | none, .error refusal => .error refusal
  | none, .ok above =>
    match Path.base path with
    | "." => .ok above
    | ".." => .ok above.dropLast
    | "/" => .ok []
    | name => if isTooLong name then .error .nameTooLong else .ok (above ++ [name])

/-- Creates the missing ones of a list of directories, each inside the one before. It stops at the
first that cannot be created; those before it stay. -/
def makeEach (d : Disk) : List String → Option SystemFault × Disk
  | [] => (none, d)
  | path :: paths =>
    match d.resolve path with
    | .ok .dir => d.makeEach paths
    | .ok (.file _) => (some (fault "mkdir" path .notDirectory), d)
    | .error _ =>
      match d.target path with
      | .error refusal => (some (fault "mkdir" path refusal), d)
      | .ok place => (d.put place .dir).makeEach paths

/-- Creates a directory and all those above it. -/
def makeDirs (d : Disk) (path : String) : Option SystemFault × Disk :=
  d.makeEach (Path.ancestors path)

/-- The last digits of a number, as many as asked for. -/
def digits : Nat → Nat → String
  | 0, _ => ""
  | count + 1, n => digits count (n / 10) ++ String.singleton (Nat.digitChar (n % 10))

/-- The path of the file that is renamed to the written one. The number in it has ten digits, as many as
those that the system draws have at most. -/
def temporary (d : Disk) (dir : String) : String :=
  (if Text.endsIn dir "/" then dir else dir ++ "/") ++ ".tmp-" ++ digits 10 d.clock

/-- Gives a text that was written under a temporary name the name that a path says; a directory cannot be
replaced in this way. -/
def install (d : Disk) (temporary path text : String) : Except SystemFault Disk :=
  let refused := SystemFault.mk "rename" [temporary, path]
  match d.resolve path, d.target path with
  | .ok .dir, _ => .error (refused .exists)
  | _, .error refusal => .error (refused refusal)
  | _, .ok place =>
    .ok { d.put place (.file ⟨.text text, .tick d.clock⟩) with clock := d.clock + 1 }

/-- Writes a text to a path, in the directory `dir` that is known to be there. It is written under
a temporary name first and then renamed, so no one sees half of it. The temporary path may be too long where
that of the file is not. -/
def replace (d : Disk) (dir path text : String) : Except SystemFault Disk :=
  match refusedPath? (d.temporary dir) with
  | some refusal => .error (fault "open" (d.temporary dir) refusal)
  | none => d.install (d.temporary dir) path text

/-- A directory at the place holds nothing. -/
def isBare (d : Disk) (place : Place) : Bool :=
  d.entries.all fun (other, _) => !(place.isPrefixOf other && other != place)

/-- Removes a file or an empty directory. -/
def remove (d : Disk) (path : String) : Except SystemFault Disk :=
  match d.place path with
  | .error refusal => .error (fault "remove" path refusal)
  | .ok place =>
    match d.entry? place with
    | none => .error (fault "remove" path .missing)
    | some (.file _) => .ok (d.drop place)
    | some .dir =>
      if Path.base path = "." then .error (fault "remove" path .invalidArgument)
      else if d.isBare place then .ok (d.drop place)
      else .error (fault "remove" path .notEmpty)

/-! ### Setting a disk up -/

/-- The working directory alone. -/
def bare (cwd : Place) : Disk :=
  let entries := (List.range cwd.length).map fun i => (cwd.take (i + 1), Entry.dir)
  ⟨entries, cwd, 0⟩

/-- A directory at a path, with all those above it. -/
def withDir (d : Disk) (path : String) : Disk :=
  (d.makeDirs (Path.clean path)).2

/-- A file at a path, with all the directories above it. -/
def withFile (d : Disk) (path : String) (file : File) : Disk :=
  let d := d.withDir (Path.dir path)
  match d.target path with
  | .ok place => d.put place (.file file)
  | .error _ => d

/-- Nothing at a path, nor below it. -/
def without (d : Disk) (path : String) : Disk :=
  match d.place path with
  | .ok place => { d with entries := d.entries.filter fun (other, _) => !place.isPrefixOf other }
  | .error _ => d

end Forwarder.Disk

/-! ### Differences -/

namespace Forwarder

/-- A change to a disk. -/
inductive Change
  | makeDir (place : Place)
  | write (place : Place) (text : String)
  | remove (place : Place)
deriving DecidableEq, Repr

namespace Disk

/-- The directories of a disk that another does not have, those further up first. -/
def newDirs (old new : Disk) : List Place :=
  ((new.entries.filter fun (place, entry) => entry == .dir && !old.isDirAt place).map (·.1)).mergeSort
    fun a b => a.length ≤ b.length

/-- The texts of a disk that another does not have at the same places. -/
def newTexts (old new : Disk) : List (Place × String) :=
  new.entries.filterMap fun (place, entry) =>
    match entry with
    | .file ⟨.text text, _⟩ =>
      if ((old.file? place).map (·.content)) == some (.text text) then none else some (place, text)
    | _ => none

/-- The places of files that another disk has nothing at. -/
def lostFiles (old new : Disk) : List Place :=
  (old.entries.filter fun (place, entry) => entry != .dir && (new.entry? place).isNone).map (·.1)

/-- What has to be done to get the other disk. -/
def changesTo (old new : Disk) : List Change :=
  (old.newDirs new).map .makeDir ++ (old.newTexts new).map (fun (place, text) => .write place text) ++
    (old.lostFiles new).map .remove

end Disk

end Forwarder
