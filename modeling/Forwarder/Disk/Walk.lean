/-
**Walking a disk.** The files below a directory, without those in directories that are passed over.

A walk comes to everything below a root if every directory strictly between them is entered; the root itself
always is. It asks the system about each entry by its path. If the system refuses one of these paths the walk
fails, unless it is lenient: then it passes over what it cannot look up.

* `Disk.met` — what a walk comes to.
* `Disk.walk` — the paths of the files below a root, in order.
* `isSourceFile`, `isArchiveFile` — tests of file names.
* `isEntered` — the directories that hold sources.
-/

import Forwarder.Disk.Basic
import Forwarder.Text.Order

namespace Forwarder

/-- A file of declarations: `.java`, and not a description of a package or module. -/
def isSourceFile (name : String) : Bool :=
  Text.endsIn name ".java" && name != "package-info.java" && name != "module-info.java"

/-- A file name with the ending of an archive. -/
def isArchiveFile (name : String) : Bool :=
  let ending := Text.lower (Path.extension name)
  ending == ".jar" || ending == ".zip"

/-- The directories that hold no sources of their own. -/
def passedOver : List String :=
  ["vendor", "node_modules", ".git", ".svn", ".hg", ".gradle", ".idea", "testdata", "build",
    "dist", "target", "out"]

/-- A directory that may hold sources: it is not hidden and not one of those passed over. -/
def isEntered (name : String) : Bool :=
  !(Text.startsBy name "." && name != "." && name != "..") && !passedOver.contains name

namespace Disk

/-- The path, as the walk spells it, of what lies below the root at the given components. -/
def walkedPath (root : String) (rest : Place) : String :=
  if rest.isEmpty then root else Path.join (root :: rest)

/-- What a walk comes to below its top, through the directories that are entered: the components from
there, and the entry. -/
def met (d : Disk) (top : Place) (entered : String → Bool) : List (Place × Entry) :=
  d.entries.filterMap fun (place, entry) =>
    match below? top place with
    | some rest => if rest.dropLast.all entered then some (rest, entry) else none
    | none => none

/-- Why the system does not look up what lies below the root at the given components. -/
def unseen? (root : String) (rest : Place) : Option SystemFault :=
  (refusedPath? (walkedPath root rest)).map (fault "lstat" (walkedPath root rest))

/-- Where a walk comes to something that the system does not look up, and why. -/
def unseen (d : Disk) (root : String) (top : Place) (entered : String → Bool) : List (Place × SystemFault) :=
  (d.met top entered).filterMap fun (rest, _) => (unseen? root rest).map fun refusal => (rest, refusal)

/-- A walk comes to the first place no later than to the second one: names are compared one after the other,
and a directory comes before what it holds. -/
def comesFirst : Place → Place → Bool
  | [], _ => true
  | _ :: _, [] => false
  | a :: place, b :: other => if a = b then comesFirst place other else decide (a ≤ b)

/-- The refusal that a walk comes to first. -/
def earlier (refused other : Place × SystemFault) : Place × SystemFault :=
  if comesFirst refused.1 other.1 then refused else other

/-- The path of a file that a walk comes to, unless the system refuses it. -/
def shown? (root : String) : Place × Entry → Option String
  | (_, .dir) => none
  | (rest, .file _) => if (unseen? root rest).isNone then some (walkedPath root rest) else none

/-- The paths of the files below a root, through the directories that are entered; the root may be
a file itself. -/
def walk (d : Disk) (root : String) (entered : String → Bool) (lenient : Bool) :
    Except SystemFault (List String) :=
  match d.place root with
  | .error refusal => if lenient then .ok [] else .error (fault "lstat" root refusal)
  | .ok top =>
    match d.unseen root top entered, lenient with
    | refused :: others, false => .error (others.foldl earlier refused).2
    | _, _ => .ok (Text.sorted ((d.met top entered).filterMap (shown? root)))

end Disk

end Forwarder
