/-
**Type loaders.** The ways to get at the surface of a type, and their combinations.

* `TypeLoader.chain` — the first loader that finds a type counts; any failure other than a type that
  is not found ends the search.
* `TypeLoader.caching` — remembers the surfaces that were found.
* `TypeLoader.load` — the surface of a type.
-/

import Forwarder.Loading.DescriptorLoader
import Forwarder.Loading.SourceLoader

namespace Forwarder

/-- A way to get at the surfaces of types. -/
inductive TypeLoader
  | sources (loader : SourceLoader)
  | descriptors (loader : DescriptorLoader)
  | chain (loaders : List TypeLoader)
  | caching (next : TypeLoader) (surfaces : Cache Surface)

/-- The failure of work that was called off. -/
def calledOff : Failure :=
  .plain "context canceled"

namespace TypeLoader

mutual

/-- The surface of a type, and the loader with what it has learned. Work that is called off fails
as soon as a source or a descriptor would have to be read. -/
def load (d : Disk) (cancelled : Bool) (name : String) :
    TypeLoader → Except Failure Surface × TypeLoader
  | .sources loader =>
    if cancelled then (.error calledOff, .sources loader)
    else
      let (surface, loader) := loader.load d name
      (surface, .sources loader)
  | .descriptors loader =>
    if cancelled then (.error calledOff, .descriptors loader)
    else
      let (surface, loader) := loader.load d name
      (surface, .descriptors loader)
  | .chain loaders =>
    let (surface, loaders) := loadFirst d cancelled name none loaders
    (surface, .chain loaders)
  | .caching next surfaces =>
    match surfaces.get? name with
    | some surface => (.ok surface, .caching next surfaces)
    | none =>
      match load d cancelled name next with
      | (.ok surface, next) => (.ok surface, .caching next (surfaces.set name surface))
      | (.error failure, next) => (.error failure, .caching next surfaces)

/-- The surface from the first loader that finds the type; `last` is the failure of the loader
before. -/
def loadFirst (d : Disk) (cancelled : Bool) (name : String) (last : Option Failure) :
    List TypeLoader → Except Failure Surface × List TypeLoader
  | [] => (.error (.typeNotFound name last), [])
  | loader :: loaders =>
    match load d cancelled name loader with
    | (.ok surface, loader) => (.ok surface, loader :: loaders)
    | (.error failure, loader) =>
      if failure.hasCode .unresolved then
        let (surface, loaders) := loadFirst d cancelled name (some failure) loaders
        (surface, loader :: loaders)
      else (.error failure, loader :: loaders)

end

/-- The number of remembered surfaces, for a loader that remembers them. -/
def cached? : TypeLoader → Option Nat
  | .caching _ surfaces => some surfaces.size
  | _ => none

/-- The loader of a run: descriptors first, then the source path, with all surfaces remembered. It
shares the reader of the run. -/
def sharing (reader : Reader) (descriptorDirs sourcePath : List String) : TypeLoader :=
  let described := if descriptorDirs.isEmpty then [] else [descriptors (.ofDirs descriptorDirs)]
  .caching (.chain (described ++ [sources (.sharing reader sourcePath)])) .empty

/-- The loader of a run that has read nothing. -/
def ofPaths (descriptorDirs sourcePath : List String) : TypeLoader :=
  sharing .fresh descriptorDirs sourcePath

end TypeLoader

end Forwarder
