/-
**Collecting files.** The files below several roots that pass a test, in order and each once.

* `Disk.matching` — the files below one root.
* `Disk.collect` — the files below several roots.
-/

import Forwarder.Disk.Walk

namespace Forwarder

/-- Which files a walk returns and which directories it enters. -/
structure Walking where
  wanted : String → Bool := fun _ => true
  entered : String → Bool := fun _ => true
  /-- What cannot be looked up is passed over. -/
  lenient : Bool := false

namespace Disk

/-- The files below a root whose names are wanted. -/
def matching (d : Disk) (walking : Walking) (root : String) :
    Except SystemFault (List String) :=
  match d.walk root walking.entered walking.lenient with
  | .ok paths => .ok (paths.filter fun path => walking.wanted (Path.base path))
  | .error fault => .error fault

/-- The wanted files below each of the roots. -/
def collectAll (d : Disk) (walking : Walking) : List String → Except Failure (List String)
  | [] => .ok []
  | root :: roots =>
    match d.matching walking root with
    | .error fault => .error (.processing ("directory walk " ++ root) (.system fault))
    | .ok found =>
      match d.collectAll walking roots with
      | .error failure => .error failure
      | .ok more => .ok (found.map Path.clean ++ more)

/-- The wanted files below the roots, in order and each once. -/
def collect (d : Disk) (walking : Walking) (roots : List String) :
    Except Failure (List String) :=
  match d.collectAll walking roots with
  | .error failure => .error failure
  | .ok paths => .ok (Text.sortedUnique paths)

end Disk

end Forwarder
