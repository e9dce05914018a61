/-
**Pools.** The declarations of files extracted by several workers at a time.

The workers share what has been read. A file is read twice, for the test of its text and for its
declaration, and each reading is a series of steps between which the other workers take theirs. Only
what a step does to the shared cache happens at once. The files begin in their order, each as soon as
fewer of them are under way than there are workers.

* `FileRead`, `Task` — how far the reading of a file, and the work on it, has got.
* `Pool.Step` — one step of one worker, or the beginning of one file.
* `Pool.Yields` — what extracting comes to when the steps are taken in some order.
* `RunsOn`, `Runs` — runs whose files are extracted in some order.
-/

import Mathlib.Logic.Relation
import Forwarder.Batch.Run

namespace Forwarder

/-- How far one reading of a file has got. -/
inductive FileRead
  | asked
  /-- The cache was looked at under the clean spelling of the path, and held this. -/
  | looked (clean : String) (item : Option (Kept String))
  /-- The file was read; its text has not been put into the cache yet. -/
  | fetched (clean text : String)
  | done (answer : Except Failure String)

namespace FileRead

/-- The next step of a reading, and the shared cache after it. -/
def next (d : Disk) (path : String) (contents : Cache String) : FileRead → FileRead × Cache String
  | asked =>
    match Reader.readable d path with
    | .error failure => (done (.error failure), contents)
    | .ok clean => (looked clean (contents.item? clean), contents)
  | looked clean (some item) =>
    if Cache.isCurrent d clean item.madeFrom then (done (.ok item.value), contents)
    else (looked clean none, contents.delete clean)
  | looked clean none =>
    match d.readFile clean with
    | .error fault => (done (.error (Reader.readFailure clean fault)), contents)
    | .ok text => (fetched clean text, contents)
  | fetched clean text => (done (.ok text), Reader.kept contents d clean text)
  | done answer => (done answer, contents)

end FileRead

/-- How far the work on a file has got. -/
inductive Task
  | waiting
  /-- The file is read for the test of its text. -/
  | testing (reading : FileRead)
  /-- The file is read for its declaration. -/
  | extracting (reading : FileRead)
  | finished (attempt : Attempt Decoration)

namespace Task

/-- The file has begun, and there is something left to do. -/
def isUnderWay : Task → Bool
  | testing _ | extracting _ => true
  | _ => false

/-- What follows on the first reading. -/
def tested (path : String) : Except Failure String → Task
  | .error failure => finished (.failed (.unreadable path (some failure)))
  | .ok text => if HeaderPattern.matchesDecorator text then extracting .asked else finished .empty

/-- What follows on the second reading. -/
def extracted (path : String) : Except Failure String → Attempt Decoration
  | .error failure => .failed (.unreadable path (some failure))
  | .ok text => Decoration.read path text

/-- The next step of the work on a file, and the shared cache after it. -/
def next (d : Disk) (path : String) (contents : Cache String) : Task → Task × Cache String
  | testing (.done answer) => (tested path answer, contents)
  | testing reading =>
    let (reading, contents) := reading.next d path contents
    (testing reading, contents)
  | extracting (.done answer) => (finished (extracted path answer), contents)
  | extracting reading =>
    let (reading, contents) := reading.next d path contents
    (extracting reading, contents)
  | other => (other, contents)

end Task

/-- The texts that all workers share, and the files in their order. -/
structure Pool where
  contents : Cache String
  tasks : List (String × Task)

namespace Pool

/-- No file has begun. -/
def waiting (files : List String) : Pool :=
  ⟨.empty, files.map fun path => (path, .waiting)⟩

/-- The number of files under way. -/
def load (tasks : List (String × Task)) : Nat :=
  tasks.countP (·.2.isUnderWay)

/-- One step. A file begins behind all those before it; there is always at least one worker. -/
inductive Step (workers : Int) (d : Disk) : Pool → Pool → Prop
  | begin {contents : Cache String} {before after : List (String × Task)} {path : String}
      (inTurn : ∀ entry ∈ before, entry.2 ≠ .waiting)
      (free : (load (before ++ after) : Int) < max 1 workers) :
      Step workers d ⟨contents, before ++ (path, .waiting) :: after⟩
        ⟨contents, before ++ (path, .testing .asked) :: after⟩
  | work {contents : Cache String} {before after : List (String × Task)} {path : String}
      {task : Task} (underWay : task.isUnderWay = true) :
      Step workers d ⟨contents, before ++ (path, task) :: after⟩
        ⟨(task.next d path contents).2, before ++ (path, (task.next d path contents).1) :: after⟩

/-- All files are finished. -/
def finished (e : Extraction) : Pool :=
  ⟨e.reader.contents, e.declared.map fun (path, attempt) => (path, .finished attempt)⟩

/-- Extracting the files comes to `e` when the steps are taken in some order. -/
def Yields (workers : Int) (d : Disk) (files : List String) (e : Extraction) : Prop :=
  Relation.ReflTransGen (Step workers d) (waiting files) (finished e) ∧ e.reader.units = .empty

end Pool

/-- A run that has found the files may come to `o`. -/
def RunsOn (config : Config) (runId : String) (d : Disk) (files : List String) (o : Outcome) : Prop :=
  ∃ extraction, Pool.Yields config.workers d files extraction ∧
    o = runScanned config runId d files extraction

/-- A run may come to `o`. -/
def Runs (config : Config) (runId : String) (cancelled : Bool) (d : Disk) (o : Outcome) : Prop :=
  match runScan config runId cancelled d with
  | .error stopped => o = stopped
  | .ok files => RunsOn config runId d files o

end Forwarder
