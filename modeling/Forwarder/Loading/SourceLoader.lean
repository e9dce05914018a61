/-
**Source path.** Loading types from directories and archives of sources.

The places of types, the listings of archives and the parsed files are remembered from one load to
the next. Within one load nothing on the disk changes, so all of it is one library: what is
remembered already, and what a fresh look gives for the rest.

* `SourceLoader.locate` — the place of a type on the source path.
* `SourceLoader.library` — the library of one load.
* `SourceLoader.load` — the surface of a type.
-/

import Forwarder.Files.Reader
import Forwarder.Loading.Closure

namespace Forwarder

open Source

/-- The roots of a source path and what has been learned about them. -/
structure SourceLoader where
  roots : List String
  reader : Reader
  /-- The names of the source entries of archives. -/
  listings : Cache (List String)
  found : Cache (Option SourcePlace)

/-- A path with the ending of an archive. -/
def isArchivePath (path : String) : Bool :=
  let lower := Text.lower path
  Text.endsIn lower ".jar" || Text.endsIn lower ".zip"

/-- The name of an entry without a slash at its start. -/
def entryName (name : String) : String :=
  match name.toList with
  | '/' :: rest => String.ofList rest
  | _ => name

namespace SourceLoader

/-- A source path of which nothing is known. -/
def ofRoots (roots : List String) : SourceLoader :=
  ⟨roots, .fresh, .empty, .empty⟩

/-- The same with a reader that has read before. -/
def sharing (reader : Reader) (roots : List String) : SourceLoader :=
  { ofRoots roots with reader }

/-- The path of the source of a type below a root. -/
def relativePath (name : String) : String :=
  Text.join "/" (Text.split '.' name) ++ ".java"

/-- The names of the source entries of an archive. -/
def listing (l : SourceLoader) (d : Disk) (archive : String) :
    Except Failure (List String) × SourceLoader :=
  match l.listings.get? archive with
  | some names => (.ok names, l)
  | none =>
    match d.openArchive archive with
    | .error failure => (.error failure, l)
    | .ok entries =>
      let names := (entries.filter fun (name, _) => Text.endsIn name ".java").map (entryName ·.1)
      (.ok names, { l with listings := l.listings.set archive names })

/-- The first place below the roots that holds a source. An archive that cannot be opened ends the
search. -/
def search (l : SourceLoader) (d : Disk) (relative : String) :
    List String → Except Failure (Option SourcePlace) × SourceLoader
  | [] => (.ok none, l)
  | root :: roots =>
    if isArchivePath root && d.isFile root then
      match l.listing d root with
      | (.error failure, l) => (.error failure, l)
      | (.ok names, l) =>
        if names.contains relative then (.ok (some (.entry root relative)), l)
        else l.search d relative roots
    else
      let path := Path.join [root, relative]
      if d.isFile path then (.ok (some (.file path)), l) else l.search d relative roots

/-- The place of a type. Where a type was found, or that it was not, is remembered. -/
def locate (l : SourceLoader) (d : Disk) (name : String) :
    Except Failure (Option SourcePlace) × SourceLoader :=
  match l.found.get? name with
  | some place => (.ok place, l)
  | none =>
    match l.search d (relativePath name) l.roots with
    | (.error failure, l) => (.error failure, l)
    | (.ok place, l) => (.ok place, { l with found := l.found.set name place })

/-- The text of an entry of an archive. -/
def entryText (d : Disk) (archive name : String) : Except Failure String :=
  match d.openArchive archive with
  | .error failure => .error failure
  | .ok entries =>
    match entries.find? fun (entry, _) => entryName entry == name with
    | some (_, text) => .ok text
    | none => .error (.plain ("entry " ++ name ++ " not found in " ++ archive))

/-- The declarations at a place. -/
def unitAt (l : SourceLoader) (d : Disk) (place : SourcePlace) :
    Except Failure CompilationUnit × SourceLoader :=
  match place with
  | .file path =>
    let (u, reader) := l.reader.parseFile d path
    (u, { l with reader })
  | .entry archive name =>
    match entryText d archive name with
    | .error failure => (.error failure, l)
    | .ok text => (parseFile place.render text, l)

/-- The library of one load. -/
def library (l : SourceLoader) (d : Disk) : Library where
  locate := fun name => (l.locate d name).1
  unitAt := fun place => (l.unitAt d place).1

/-- The declaration file of a type has been read. -/
def afterVisit (d : Disk) (l : SourceLoader) (name : String) : SourceLoader :=
  match l.locate d name with
  | (.ok (some place), l) => (l.unitAt d place).2
  | (_, l) => l

/-- Remembers what a search has asked for and visited. -/
def remember (l : SourceLoader) (d : Disk) (t : Trace) : SourceLoader :=
  let l := t.asked.foldl (fun l name => (l.locate d name).2) l
  t.visited.foldl (afterVisit d) l

/-- The texts on a disk: those of its files, and those in its archives. -/
def texts (d : Disk) : List String :=
  d.entries.flatMap fun (_, entry) =>
    match entry with
    | .dir => []
    | .file file => file.content.asText :: (file.content.entries?.getD []).map (·.2)

/-- All counts together. -/
def total : List Nat → Nat
  | [] => 0
  | count :: counts => count + total counts

/-- More types than these cannot be open at a time. Each of them but the first is a supertype in a
file that is remembered or read, and a text declares fewer supertypes than it has characters. -/
def bound (l : SourceLoader) (d : Disk) : Nat :=
  total (l.reader.units.items.map fun (_, kept) => kept.value.supertypeCount) +
    total (l.reader.contents.items.map fun (_, kept) => kept.value.length) +
    total ((texts d).map String.length) + 2

/-- The surface of a type. -/
def load (l : SourceLoader) (d : Disk) (name : String) : Except Failure Surface × SourceLoader :=
  let (surface, t) := (l.library d).loadWithin (l.bound d) name .start
  (surface, l.remember d t)

end SourceLoader

end Forwarder
