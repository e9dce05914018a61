/-
**Disturbed runs.** What a run may leave behind whatever happens to it: it may be called off at any time,
files may fail to be read, types may fail to be found, and the system may refuse any step of the writing of
a unit.

* `Output.writeInSteps` — a unit is written, as far as the system lets it.
* `Leaves` — what making units for declarations may leave of a disk.
* `MayLeave` — what a run may leave of a disk.
-/

import Forwarder.Batch.Run
import Forwarder.Files.Steps

namespace Forwarder

/-- The disk after a unit was written in steps, or printed in a dry run. -/
def Output.writeInSteps (out : Output) (t : Treatment) (d : Disk) (u : GeneratedUnit) : Disk :=
  match out.place u with
  | .error _ => d
  | .ok path => if out.dryRun then d else (d.writeInSteps t path u.source).2

/-- What making units for the declarations, one after the other, may leave of a disk. -/
inductive Leaves (out : Output) : Disk → List (String × Attempt Decoration) → Disk → Prop
  /-- It is called off before the next declaration, or comes to its end. -/
  | ended (d : Disk) (declared : List (String × Attempt Decoration)) : Leaves out d declared d
  /-- No unit is made. -/
  | passed {d e : Disk} {entry : String × Attempt Decoration} {rest : List (String × Attempt Decoration)}
      (others : Leaves out d rest e) : Leaves out d (entry :: rest) e
  /-- A unit is made, whatever the type was found to be, and written as far as the system lets it. -/
  | made {d e : Disk} {path : String} {decoration : Decoration}
      {rest : List (String × Attempt Decoration)} {surface : Surface} {u : GeneratedUnit} (t : Treatment)
      (isUnit : Forwarding.synthesize decoration (some surface) = .ok u)
      (others : Leaves out (out.writeInSteps t d u) rest e) :
      Leaves out d ((path, .present decoration) :: rest) e

/-- What a run may leave of a disk. -/
inductive MayLeave (config : Config) (d : Disk) : Disk → Prop
  /-- It ends before it makes any unit. -/
  | nothing : MayLeave config d d
  /-- It makes units for declarations that it has read in its files. -/
  | units {files : List String} {declared : List (String × Attempt Decoration)} {e : Disk}
      (scanned : d.scan config.sourceDirs = .ok files)
      (extracted : ∀ entry ∈ declared, entry.1 ∈ files ∧ ∀ decoration, entry.2 = .present decoration →
        (Reader.fresh.extract d entry.1).1 = .present decoration)
      (leaves : Leaves ⟨config.outputDir, config.dryRun⟩ d declared e) : MayLeave config d e

end Forwarder
