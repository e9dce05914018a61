/-
**Paths.** Slash-separated paths and their shortest spelling.

* `Path.clean` — the shortest path that means the same: no empty, `.` or inner `..` components.
* `Path.join`, `Path.dir`, `Path.base`, `Path.extension` — the usual operations, all clean.
* `Path.absolute` — a path seen from a working directory.
-/

import Forwarder.Text.Pieces

namespace Forwarder.Path

/-- The path starts at the root. -/
def isAbsolute (path : String) : Bool :=
  Text.startsBy path "/"

/-- The components between the slashes, as they are written. -/
def written (path : String) : List String :=
  Text.split '/' path

/-- One more component behind components in reverse. A parent component takes back the last one; it
is dropped at the root and kept at the start of a relative path. -/
def push (absolute : Bool) (reversed : List String) (component : String) : List String :=
  if component = "" ∨ component = "." then reversed
  else if component = ".." then
    match reversed with
    | [] => if absolute then [] else [".."]
    | last :: before => if last = ".." then ".." :: reversed else before
  else component :: reversed

/-- The components of the shortest spelling. -/
def components (path : String) : List String :=
  ((written path).foldl (push (isAbsolute path)) []).reverse

/-- A path with the given components. -/
def ofComponents (absolute : Bool) (components : List String) : String :=
  if absolute then "/" ++ Text.join "/" components
  else if components.isEmpty then "."
  else Text.join "/" components

/-- The shortest spelling of a path; the empty path is the current directory. -/
def clean (path : String) : String :=
  ofComponents (isAbsolute path) (components path)

/-- The parts in one path, without the empty ones; no parts make the empty path. -/
def join (parts : List String) : String :=
  let parts := parts.filter (· != "")
  if parts.isEmpty then "" else clean (Text.join "/" parts)

/-- The path without its last component. -/
def dir (path : String) : String :=
  let front := Text.beforeLast '/' path.toList
  if path.toList.contains '/' then clean (String.ofList front ++ "/") else "."

/-- The last component of the path. -/
def base (path : String) : String :=
  if path.isEmpty then "."
  else
    let stripped := Text.dropSlashes path.toList
    if stripped.isEmpty then "/" else String.ofList (Text.afterLast '/' stripped)

/-- The ending of the last component, from its last point on. -/
def extension (path : String) : String :=
  let name := Text.afterLast '/' path.toList
  if name.contains '.' then "." ++ String.ofList (Text.afterLast '.' name) else ""

/-- A path below a directory in the spelling of the working directory. -/
def absolute (cwd path : String) : String :=
  if isAbsolute path then clean path else join [cwd, path]

/-- The texts of a clean path and of all the directories above it, the topmost first. -/
def ancestors (path : String) : List String :=
  let parts := components path
  (List.range parts.length).map fun i => ofComponents (isAbsolute path) (parts.take (i + 1))

end Forwarder.Path
