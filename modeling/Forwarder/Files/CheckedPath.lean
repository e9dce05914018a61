/-
**Checked paths.** Which paths are worked on, and in which spelling.

* `checkedPath` — the clean spelling of a path that does not climb.
* `Disk.existingPath` — the same for a path that has to lead somewhere.
* `within` — a relative path below a root that it cannot leave.
* `Disk.firstLine` — the first line of the file at such a path, looking at a limited number of its bytes.
-/

import Forwarder.Disk.Basic
import Forwarder.Text.Quoted

namespace Forwarder

/-- Two points in a row occur in the path other than at its start. -/
def climbs (clean : String) : Bool :=
  Text.contains clean ".." && !Text.startsBy clean ".."

/-- The failure of a path that climbs. -/
def climbing (path : String) : Failure :=
  .plain ("path traversal not allowed in file path: " ++ path)

/-- The clean spelling of a path, if it is not empty and does not climb. -/
def checkedPath (path : String) : Except Failure String :=
  if path.isEmpty then .error (.plain "file path cannot be empty")
  else
    let clean := Path.clean path
    if climbs clean then .error (climbing path) else .ok clean

/-- The clean spelling of a path that is not missing. -/
def Disk.existingPath (d : Disk) (path : String) : Except Failure String :=
  match checkedPath path with
  | .error failure => .error failure
  | .ok clean =>
    if d.isMissing clean then .error (.plain ("file does not exist: " ++ clean)) else .ok clean

/-- The words about a path that cannot be placed below a root. -/
def misplaced (path reason : String) : Failure :=
  .plain ("path " ++ Text.quoted path ++ " " ++ reason)

/-- A relative path below a root. It has to have at least one component and must not start with a
parent component, so the result lies strictly below the root. -/
def within (root relative : String) : Except Failure String :=
  if root.isEmpty then .error (.plain "output root cannot be empty")
  else
    let parts := Path.components relative
    if Path.isAbsolute relative then .error (misplaced relative "must be relative")
    else if parts.isEmpty then .error (misplaced relative "is empty")
    else if parts.head? = some ".." then .error (misplaced relative "escapes the output root")
    else .ok (Path.join [root, Path.ofComponents false parts])

/-- A line without the carriage return at its end. -/
def withoutReturn (line : List Char) : List Char :=
  if line.getLast? = some '\r' then line.dropLast else line

/-- The first line of a text, without its end, unless it has `limit` bytes or more. -/
def firstLineWithin (limit : Int) (text : String) : Option String :=
  let line := text.toList.takeWhile (· != '\n')
  if ((String.ofList line).utf8ByteSize : Int) < limit then
    some (String.ofList (withoutReturn line))
  else none

/-- The first line of the file at a path. -/
def Disk.firstLine (d : Disk) (path : String) (limit : Int) : Except Failure String :=
  match d.existingPath path with
  | .error failure => .error failure
  | .ok clean =>
    match d.readFile clean with
    | .error fault => .error (.fileSystem "read" clean (some (.system fault)))
    | .ok text =>
      match firstLineWithin limit text with
      | some line => .ok line
      | none => .error (.fileSystem "read" clean (some (.plain "bufio.Scanner: token too long")))

end Forwarder
