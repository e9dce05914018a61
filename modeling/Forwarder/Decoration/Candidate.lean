/-
**Candidates.** Which files are worth parsing: those whose text looks like a decorator declaration.

* `Reader.isDecoratable` — the file at a path is a candidate.
-/

import Forwarder.Decoration.HeaderPattern
import Forwarder.Files.Reader

namespace Forwarder.Reader

/-- The text of the file at a path has the shape of a decorator declaration. A file that cannot be
read is a failure, not a `false`. -/
def isDecoratable (r : Reader) (d : Disk) (path : String) : Except Failure Bool × Reader :=
  match r.readText d path with
  | (.error failure, r) => (.error (.unreadable path (some failure)), r)
  | (.ok text, r) => (.ok (HeaderPattern.matchesDecorator text), r)

end Forwarder.Reader
