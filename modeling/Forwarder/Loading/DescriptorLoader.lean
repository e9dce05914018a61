/-
**Descriptor directories.** Loading types that are described in files.

All directories are read when the first type is asked for. Of several descriptions of one type the
first counts, and one bad file spoils them all.

* `describedSurfaces` — the surfaces of all directories.
* `DescriptorLoader.load` — the surface of a type.
-/

import Forwarder.Descriptor
import Forwarder.Disk.Basic
import Forwarder.Text.Order

namespace Forwarder

/-- Directories of descriptors, and what has been read from them. -/
structure DescriptorLoader where
  dirs : List String
  surfaces : Option (Except Failure (List Surface))

/-- A file name with the ending of a descriptor. -/
def isDescriptorFile (name : String) : Bool :=
  let ending := Text.lower (Path.extension name)
  ending == ".yaml" || ending == ".yml"

namespace DescriptorLoader

/-- Directories from which nothing has been read. -/
def ofDirs (dirs : List String) : DescriptorLoader :=
  ⟨dirs, none⟩

/-- The descriptor files of a directory, in order. -/
def filesIn (d : Disk) (dir : String) : Except Failure (List String) :=
  let refused (refusal : Refusal) :=
    Failure.fileSystem "read descriptor directory" dir (some (.system (Disk.fault "open" dir refusal)))
  match d.place dir with
  | .error refusal => .error (refused refusal)
  | .ok place =>
    if d.isDirAt place then
      let names := (d.namesIn place).filter fun name =>
        isDescriptorFile name && (d.file? (place ++ [name])).isSome
      .ok (Text.sorted (names.map fun name => Path.join [dir, name]))
    else .error (refused .notDirectory)

/-- The surfaces of a descriptor file. -/
def surfacesOf (d : Disk) (path : String) : Except Failure (List Surface) :=
  match d.readFile path with
  | .error fault => .error (.fileSystem "open descriptor" path (some (.system fault)))
  | .ok text =>
    match Descriptor.decode text with
    | .ok surfaces => .ok surfaces
    | .error fault =>
      .error (.caused .configuration
        ("invalid type descriptor " ++ path ++ ": " ++ fault.message) (some (.plain fault.message)))

/-- The surfaces of several files. -/
def surfacesOfAll (d : Disk) : List String → Except Failure (List Surface)
  | [] => .ok []
  | path :: paths =>
    match surfacesOf d path with
    | .error failure => .error failure
    | .ok found =>
      match surfacesOfAll d paths with
      | .error failure => .error failure
      | .ok more => .ok (found ++ more)

/-- The surfaces of several directories. -/
def surfacesIn (d : Disk) : List String → Except Failure (List Surface)
  | [] => .ok []
  | dir :: dirs =>
    match filesIn d dir with
    | .error failure => .error failure
    | .ok paths =>
      match surfacesOfAll d paths with
      | .error failure => .error failure
      | .ok found =>
        match surfacesIn d dirs with
        | .error failure => .error failure
        | .ok more => .ok (found ++ more)

/-- What the directories describe: what was read first. -/
def described (l : DescriptorLoader) (d : Disk) : Except Failure (List Surface) :=
  l.surfaces.getD (surfacesIn d l.dirs)

/-- The surface of a type. -/
def load (l : DescriptorLoader) (d : Disk) (name : String) :
    Except Failure Surface × DescriptorLoader :=
  let described := l.described d
  let surface := match described with
    | .error failure => .error failure
    | .ok surfaces =>
      match surfaces.find? (·.name == name) with
      | some surface => .ok surface
      | none => .error (.typeNotFound name none)
  (surface, { l with surfaces := some described })

end DescriptorLoader

end Forwarder
