/-
**Caches.** Values under keys, some of them good only as long as a file stays as it is.

* `Cache.get?`, `Cache.set`, `Cache.delete` — the plain store.
* `Cache.getOrLoad` — the value under a key, computed when it is missing; a failed computation is
  not kept.
* `Cache.setFor`, `Cache.getFor?` — values that belong to a state of a file.
-/

import Forwarder.Disk.Basic

namespace Forwarder

/-- A kept value, with the state of the file it was made from. -/
structure Kept (α : Type) where
  value : α
  madeFrom : Option Fingerprint

/-- Values under keys, each key once. -/
structure Cache (α : Type) where
  items : List (String × Kept α)

namespace Cache

variable {α : Type}

/-- Nothing is kept. -/
def empty : Cache α :=
  ⟨[]⟩

/-- The item under a key. -/
def item? (cache : Cache α) (key : String) : Option (Kept α) :=
  cache.items.lookup key

/-- The value under a key. -/
def get? (cache : Cache α) (key : String) : Option α :=
  (cache.item? key).map (·.value)

/-- Nothing under a key. -/
def delete (cache : Cache α) (key : String) : Cache α :=
  ⟨cache.items.filter (·.1 != key)⟩

/-- An item under a key, instead of the one that was there. -/
def keep (cache : Cache α) (key : String) (item : Kept α) : Cache α :=
  ⟨(cache.delete key).items ++ [(key, item)]⟩

/-- A value under a key that belongs to no file. -/
def set (cache : Cache α) (key : String) (value : α) : Cache α :=
  cache.keep key ⟨value, none⟩

/-- The number of kept values. -/
def size (cache : Cache α) : Nat :=
  cache.items.length

/-- The keys of all kept values. -/
def keys (cache : Cache α) : List String :=
  cache.items.map (·.1)

/-- The value under a key, or else the computed one, which is kept unless its computation failed.
The last part tells whether anything was computed. -/
def getOrLoad (cache : Cache α) (key : String) (load : Unit → α × Option Failure) :
    (α × Option Failure) × Bool × Cache α :=
  match cache.get? key with
  | some value => ((value, none), false, cache)
  | none =>
    match load () with
    | (value, none) => ((value, none), true, cache.set key value)
    | (value, some failure) => ((value, some failure), true, cache)

/-! ### Values made from files -/

/-- A value under a key that belongs to the present state of a file. -/
def setFor (cache : Cache α) (d : Disk) (key path : String) (value : α) :
    Except SystemFault (Cache α) :=
  match d.fingerprint path with
  | .error fault => .error fault
  | .ok state => .ok (cache.keep key ⟨value, some state⟩)

/-- The file is in the given state. -/
def isCurrent (d : Disk) (path : String) (state : Option Fingerprint) : Bool :=
  match state, d.fingerprint path with
  | some known, .ok present => known == present
  | _, _ => false

/-- The value under a key if its file is still in the state that the value was made from; if not,
the value is dropped. -/
def getFor? (cache : Cache α) (d : Disk) (key path : String) : Option α × Cache α :=
  match cache.item? key with
  | none => (none, cache)
  | some item =>
    if isCurrent d path item.madeFrom then (some item.value, cache) else (none, cache.delete key)

end Cache

end Forwarder
