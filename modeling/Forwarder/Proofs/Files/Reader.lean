/-
**The reader answers what the disk holds.** Every text and every unit that is kept was made from the state
that its file is in, so it makes no difference whether it is taken from the cache or from the disk.

* `Cache.Faithful` — what is kept belongs to the present state of its file.
* `Disk.textOf`, `Disk.unitOf` — what a reader that keeps nothing would answer.
* `Reader.Faithful` — the reader keeps only what the files hold.
* **`Reader.readText_eq`, `Reader.parseFile_eq`** — a faithful reader answers what the disk holds, and
  stays faithful.
-/

import Forwarder.Files.Reader
import Forwarder.Proofs.Disk.Growth

namespace Forwarder

open Source (CompilationUnit)

namespace Cache

variable {α : Type} {cache : Cache α} {key : String} {d e : Disk} {holds : String → α → Prop}

theorem item?_keep (cache : Cache α) (changed key : String) (item : Kept α) :
    (cache.keep changed item).item? key = if key = changed then some item else cache.item? key :=
  lookup_replaced cache.items changed key item

/-- Every item was made from the present state of its file, and has a value that it should have. -/
def Faithful (d : Disk) (holds : String → α → Prop) (cache : Cache α) : Prop :=
  ∀ key item, cache.item? key = some item →
    ∃ state, item.madeFrom = some state ∧ d.fingerprint key = .ok state ∧ holds key item.value

theorem faithful_empty (d : Disk) (holds : String → α → Prop) : (empty : Cache α).Faithful d holds :=
  fun _ _ found => by cases found

/-- Whether something is kept for a file or not, asking for it drops nothing. -/
theorem Faithful.getFor? (faithful : cache.Faithful d holds)
    (same : e.fingerprint key = d.fingerprint key) :
    cache.getFor? e key key = (none, cache) ∨
      ∃ value, cache.getFor? e key key = (some value, cache) ∧ holds key value := by
  rw [Cache.getFor?]
  cases found : cache.item? key with
  | none => exact .inl rfl
  | some item =>
    obtain ⟨state, madeFrom, present, good⟩ := faithful key item found
    have current : isCurrent e key item.madeFrom = true := by
      simp only [isCurrent, madeFrom, same, present, beq_self_eq_true]
    exact .inr ⟨item.value, if_pos current, good⟩

/-- A good value may be kept. -/
theorem Faithful.kept (faithful : cache.Faithful d holds)
    (same : e.fingerprint key = d.fingerprint key) {value : α} (good : holds key value) :
    (Reader.kept cache e key value).Faithful d holds := by
  rw [Reader.kept, setFor, same]
  cases present : d.fingerprint key with
  | error fault => exact faithful
  | ok state =>
    intro other item found
    rw [item?_keep] at found
    split at found
    · next isKey =>
      cases found
      rw [isKey]
      exact ⟨state, rfl, present, good⟩
    · exact faithful other item found

theorem item?_delete (cache : Cache α) (dropped key : String) :
    (cache.delete dropped).item? key = if key = dropped then none else cache.item? key :=
  lookup_dropped cache.items dropped key

theorem Faithful.delete (faithful : cache.Faithful d holds) (dropped : String) :
    (cache.delete dropped).Faithful d holds := by
  intro key item found
  rw [item?_delete] at found
  split_ifs at found
  exact faithful key item found

end Cache

/-! ### Answers of the disk -/

section Answers

variable {d e : Disk} {path clean : String}

theorem readable_eq_ok (readable : Reader.readable d path = .ok clean) :
    clean = Path.clean path ∧ Reader.readable d clean = .ok clean := by
  rw [Reader.readable] at readable
  split at readable
  · cases readable
  dsimp only at readable
  split at readable
  · cases readable
  next allowed =>
  split at readable
  · next entry found =>
    cases readable
    have some_ : (Path.clean path).isEmpty = false := by
      simpa using Path.clean_ne_empty path
    refine ⟨rfl, ?_⟩
    rw [Reader.readable, some_, if_neg Bool.false_ne_true]
    simp only [Path.clean_clean, if_neg allowed, found]
  · split at readable <;> cases readable

/-- The text of a file as the disk holds it. -/
def Disk.textOf (d : Disk) (path : String) : Except Failure String :=
  match Reader.readable d path with
  | .error failure => .error failure
  | .ok clean =>
    match d.readFile clean with
    | .error fault => .error (Reader.readFailure clean fault)
    | .ok text => .ok text

/-- The declarations of a file as the disk holds it. -/
def Disk.unitOf (d : Disk) (path : String) : Except Failure CompilationUnit :=
  match Reader.readable d path with
  | .error failure => .error failure
  | .ok clean =>
    match d.textOf clean with
    | .error failure => .error failure
    | .ok text => Source.parseFile clean text

/-- The two disks have the same state and text at the path. -/
structure Disk.SameFile (d e : Disk) (path : String) : Prop where
  state : e.fingerprint path = d.fingerprint path
  text : e.readFile path = d.readFile path

theorem Disk.SameAt.sameFile (same : d.SameAt e path) (isFile : d.isFile path = true) :
    d.SameFile e path :=
  ⟨same.fingerprint isFile, same.readFile isFile⟩

/-- The same file has the same declarations. -/
theorem Disk.SameAt.unitOf (same : d.SameAt e path) (isFile : d.isFile path = true)
    (isClean : Path.clean path = path) : e.unitOf path = d.unitOf path := by
  have readable : Reader.readable e path = Reader.readable d path := by
    simp only [Reader.readable, isClean, same.stat isFile]
  rw [Disk.unitOf, Disk.unitOf, readable]
  cases answer : Reader.readable d path with
  | error failure => rfl
  | ok clean =>
    obtain ⟨rfl, -⟩ := readable_eq_ok answer
    simp only [isClean, textOf, readable, same.readFile isFile, answer]

theorem Disk.textOf_atClock (d : Disk) (now : Nat) (path : String) :
    (d.atClock now).textOf path = d.textOf path := by
  simp only [textOf, Reader.readable, stat_atClock, readFile_atClock]

end Answers

/-! ### Faithful readers -/

namespace Reader

variable {d e : Disk} {r : Reader} {path : String}

/-- The text is the one of the file. -/
def HoldsText (d : Disk) (path text : String) : Prop :=
  d.readFile path = .ok text

/-- The unit is the one of the text of the file. -/
def HoldsUnit (d : Disk) (path : String) (u : CompilationUnit) : Prop :=
  ∃ text, d.readFile path = .ok text ∧ Source.parseFile path text = .ok u

/-- Only what the files of the disk hold is kept. -/
structure Faithful (d : Disk) (r : Reader) : Prop where
  units : r.units.Faithful d (HoldsUnit d)
  contents : r.contents.Faithful d (HoldsText d)

theorem faithful_fresh (d : Disk) : fresh.Faithful d :=
  ⟨Cache.faithful_empty d _, Cache.faithful_empty d _⟩

/-- The time makes no difference to what is kept. -/
theorem Faithful.of_atClock {now : Nat} (faithful : r.Faithful (d.atClock now)) : r.Faithful d := by
  obtain ⟨units, contents⟩ := faithful
  refine ⟨fun key item found => ?_, fun key item found => ?_⟩
  · simpa only [HoldsUnit, Disk.fingerprint_atClock, Disk.readFile_atClock] using units key item found
  · simpa only [HoldsText, Disk.fingerprint_atClock, Disk.readFile_atClock] using
      contents key item found

/-- **The text of a file** is what the disk holds. The disk may be another one than the one that was read
before, as long as the file is the same. -/
theorem readText_eq (faithful : r.Faithful d) (same : d.SameFile e (Path.clean path)) :
    (r.readText e path).1 = e.textOf path ∧ (r.readText e path).2.Faithful d := by
  rw [readText, Disk.textOf]
  cases readable : Reader.readable e path with
  | error failure => exact ⟨rfl, faithful⟩
  | ok clean =>
    obtain ⟨rfl, -⟩ := readable_eq_ok readable
    rcases faithful.contents.getFor? same.state with missed | ⟨text, found, good⟩
    · simp only [missed]
      cases read : e.readFile (Path.clean path) with
      | error fault => exact ⟨rfl, faithful⟩
      | ok text =>
        exact ⟨rfl, faithful.units, faithful.contents.kept same.state (same.text.symm.trans read)⟩
    · have read : e.readFile (Path.clean path) = .ok text := same.text.trans good
      simp only [found, read]
      exact ⟨trivial, faithful⟩

/-- **The declarations of a file** are what the disk holds. -/
theorem parseFile_eq (faithful : r.Faithful d) (same : d.SameFile e (Path.clean path)) :
    (r.parseFile e path).1 = e.unitOf path ∧ (r.parseFile e path).2.Faithful d := by
  rw [parseFile, Disk.unitOf]
  cases readable : Reader.readable e path with
  | error failure => exact ⟨rfl, faithful⟩
  | ok clean =>
    obtain ⟨rfl, again⟩ := readable_eq_ok readable
    have sameClean : d.SameFile e (Path.clean (Path.clean path)) := by rwa [Path.clean_clean]
    rcases faithful.units.getFor? same.state with missed | ⟨u, found, text, read, parsed⟩
    · obtain ⟨answer, still⟩ := readText_eq (show Faithful d { r with units := r.units } from faithful) sameClean
      simp only [missed]
      rw [← answer]
      generalize readText { r with units := r.units } e (Path.clean path) = outcome at answer still ⊢
      obtain ⟨result, r'⟩ := outcome
      cases result with
      | error failure => exact ⟨rfl, still⟩
      | ok text =>
        dsimp only at answer still ⊢
        have read : d.readFile (Path.clean path) = .ok text := by
          rw [Disk.textOf, again] at answer
          dsimp only at answer
          split at answer
          · cases answer
          · next read =>
            cases answer
            rw [← same.text, read]
        cases parsed : Source.parseFile (Path.clean path) text with
        | error failure => exact ⟨rfl, still⟩
        | ok u => exact ⟨rfl, still.units.kept same.state ⟨text, read, parsed⟩, still.contents⟩
    · have read' : e.readFile (Path.clean path) = .ok text := same.text.trans read
      simp only [found, Disk.textOf, again, read', parsed]
      exact ⟨trivial, faithful⟩

end Reader

end Forwarder
