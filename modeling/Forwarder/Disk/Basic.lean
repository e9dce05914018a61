/-
**Disks.** Files and directories, seen from a working directory, and what the system answers when
they are looked up and read.

An entry is found under the components of its absolute path. The root directory is always there and
is not listed.

* `Disk` — the entries, the working directory and a clock that stamps what is written.
* `Disk.resolve` — the entry a path leads to, or why it leads nowhere.
* `Disk.stat`, `Disk.readFile`, `Disk.openArchive` — looking and reading.
-/

import Forwarder.Archive.Stored
import Forwarder.Archive.Zip
import Forwarder.Failure
import Forwarder.Path
import Forwarder.Text.Bytes

namespace Forwarder

/-- When a file was last written: at a given time, or at a tick of the disk's own clock. -/
inductive Stamp
  | given (seconds : Int)
  | tick (n : Nat)
deriving DecidableEq, Repr

/-- What a file holds. -/
inductive Content
  | text (value : String)
  /-- An archive with its entries in order. -/
  | archive (entries : List (String × String))
deriving DecidableEq, Repr

namespace Content

/-- The size in bytes. -/
def size : Content → Nat
  | .text value => value.utf8ByteSize
  | .archive entries => Archive.storedSize entries

/-- The content read as a text. -/
def asText : Content → String
  | .text value => value
  | .archive entries => Text.ofBytes (Archive.storedBytes entries)

/-- The entries of the content, if it is an archive or reads as one. -/
def entries? : Content → Option (List (String × String))
  | .text value => Archive.entries? value.toUTF8
  | .archive entries => some entries

end Content

/-- A file. -/
structure File where
  content : Content
  stamp : Stamp
deriving DecidableEq, Repr

/-- An entry of a disk. -/
inductive Entry
  | dir
  | file (file : File)
deriving DecidableEq, Repr

/-- What tells one state of an entry from another: of a file, when it was written and how large it
is; of a directory, the names in it. -/
inductive Fingerprint
  | file (stamp : Stamp) (size : Nat)
  | dir (names : List String)
deriving DecidableEq, Repr

/-- The components of an absolute path. -/
abbrev Place :=
  List String

/-- Files and directories, seen from a working directory. -/
structure Disk where
  entries : List (Place × Entry)
  cwd : Place
  clock : Nat
deriving DecidableEq, Repr

namespace Disk

/-- The entry at a place. -/
def entry? (d : Disk) (place : Place) : Option Entry :=
  if place = [] then some .dir else d.entries.lookup place

/-- A directory is at the place. -/
def isDirAt (d : Disk) (place : Place) : Bool :=
  d.entry? place == some .dir

/-- The file at a place. -/
def file? (d : Disk) (place : Place) : Option File :=
  match d.entry? place with
  | some (.file file) => some file
  | _ => none

/-- The working directory as a path. -/
def cwdText (d : Disk) : String :=
  Path.ofComponents true d.cwd

/-- The component cannot be the name of an entry. -/
def isTooLong (component : String) : Bool :=
  component.utf8ByteSize > 255

/-- Why a path is refused as it is written, before anything is looked up. -/
def refusedPath? (path : String) : Option Refusal :=
  if path.isEmpty then some .missing
  else if path.toList.contains '\x00' then some .invalidArgument
  else if path.utf8ByteSize > 4095 then some .nameTooLong
  else none

/-- Follows components from a place. Only a directory can be gone through. -/
def follow (d : Disk) (here : Place) : List String → Except Refusal Place
  | [] => .ok here
  | component :: rest =>
    if d.isDirAt here then
      if component = "" ∨ component = "." then d.follow here rest
      else if component = ".." then d.follow here.dropLast rest
      else if isTooLong component then .error .nameTooLong
      else
        match d.entry? (here ++ [component]) with
        | none => .error .missing
        | some _ => d.follow (here ++ [component]) rest
    else .error .notDirectory

/-- The place a path leads to. -/
def place (d : Disk) (path : String) : Except Refusal Place :=
  match refusedPath? path with
  | some refusal => .error refusal
  | none => d.follow (if Path.isAbsolute path then [] else d.cwd) (Path.written path)

/-- The entry a path leads to. -/
def resolve (d : Disk) (path : String) : Except Refusal Entry :=
  match d.place path with
  | .error refusal => .error refusal
  | .ok place =>
    match d.entry? place with
    | none => .error .missing
    | some entry => .ok entry

/-- A refused operation on a path. -/
def fault (operation path : String) (refusal : Refusal) : SystemFault :=
  ⟨operation, [path], refusal⟩

/-- The entry a path leads to, with the operation that asks for it. -/
def lookUp (d : Disk) (operation path : String) : Except SystemFault Entry :=
  match d.resolve path with
  | .error refusal => .error (fault operation path refusal)
  | .ok entry => .ok entry

/-- What is at a path. -/
def stat (d : Disk) (path : String) : Except SystemFault Entry :=
  d.lookUp "stat" path

/-- A path leads nowhere because something on its way is missing. -/
def isMissing (d : Disk) (path : String) : Bool :=
  match d.resolve path with
  | .error .missing => true
  | _ => false

/-- A directory is at the path. -/
def isDir (d : Disk) (path : String) : Bool :=
  match d.resolve path with
  | .ok .dir => true
  | _ => false

/-- A file is at the path. -/
def isFile (d : Disk) (path : String) : Bool :=
  match d.resolve path with
  | .ok (.file _) => true
  | _ => false

/-- The file at a path. -/
def openFile (d : Disk) (path : String) : Except SystemFault File :=
  match d.lookUp "open" path with
  | .error fault => .error fault
  | .ok .dir => .error (fault "read" path .isDirectory)
  | .ok (.file file) => .ok file

/-- The text of the file at a path. -/
def readFile (d : Disk) (path : String) : Except SystemFault String :=
  match d.openFile path with
  | .error fault => .error fault
  | .ok file => .ok file.content.asText

/-- The entries of the archive at a path. -/
def openArchive (d : Disk) (path : String) : Except Failure (List (String × String)) :=
  match d.openFile path with
  | .error fault => .error (.system fault)
  | .ok file =>
    match file.content.entries? with
    | some entries => .ok entries
    | none => .error (.plain "zip: not a valid zip file")

/-! ### Listing -/

/-- The names in the directory at a place. -/
def namesIn (d : Disk) (place : Place) : List String :=
  d.entries.filterMap fun (other, _) =>
    if other.dropLast = place then other.getLast? else none

/-- The state of the entry at a path. -/
def fingerprint (d : Disk) (path : String) : Except SystemFault Fingerprint :=
  match d.place path with
  | .error refusal => .error (fault "stat" path refusal)
  | .ok place =>
    match d.file? place with
    | some file => .ok (.file file.stamp file.content.size)
    | none => .ok (.dir (d.namesIn place))

/-- What is left of a place below another one. -/
def below? (top place : Place) : Option Place :=
  if top.isPrefixOf place then some (place.drop top.length) else none

/-- All files below the working directory, by their paths from there, in order of the paths. -/
def filesHere (d : Disk) : List (String × File) :=
  let found := d.entries.filterMap fun (place, entry) =>
    match below? d.cwd place, entry with
    | some rest, .file file => some (Text.join "/" rest, file)
    | _, _ => none
  found.mergeSort fun a b => decide (a.1 ≤ b.1)

end Disk

end Forwarder
