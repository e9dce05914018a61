/-
**Removing files.** A disk without some of its files has everything else that it had, under the same paths.

* `Disk.withoutFiles` — a disk without what is at some places.
* `AreFiles` — these are places of files.
* **`place_withoutFiles_iff`** — the other places are found as before.
* `Cleaning.IsRemoval`, **`isRemoval_removeEach`** — files that are removed one after the other.
* `FileAt.base_eq` — a path that leads to a file ends with its name.
-/

import Forwarder.Batch.Clean
import Forwarder.Proofs.Disk.Proper

namespace Forwarder

open Forwarder.Path (IsEntryName)

namespace Disk

variable {d : Disk} {gone more : List Place} {place : Place} {path : String} {file : File}

/-- The disk without what is at the places. -/
def withoutFiles (d : Disk) (gone : List Place) : Disk :=
  { d with entries := d.entries.filter fun entry => !gone.contains entry.1 }

/-- There are files at all of the places. -/
def AreFiles (d : Disk) (gone : List Place) : Prop :=
  ∀ place ∈ gone, ∃ file, d.file? place = some file

@[simp]
theorem withoutFiles_nil (d : Disk) : d.withoutFiles [] = d := by
  simp [withoutFiles]

theorem withoutFiles_append (d : Disk) (gone more : List Place) :
    d.withoutFiles (gone ++ more) = (d.withoutFiles gone).withoutFiles more := by
  simp only [withoutFiles, List.filter_filter, List.contains_append, Bool.not_or]
  congr 2
  funext entry
  exact Bool.and_comm _ _

theorem drop_eq (d : Disk) (place : Place) : d.drop place = d.withoutFiles [place] := by
  rw [drop, withoutFiles]
  congr 2
  funext entry
  rw [List.contains_cons, List.contains_nil, Bool.or_false]
  rfl

/-! ### What is left -/

theorem AreFiles.inner (files : d.AreFiles gone) (member : place ∈ gone) : place ≠ [] := by
  rintro rfl
  obtain ⟨file, isFile⟩ := files [] member
  cases isFile

/-- What is found at a place that is not given up is still found there. -/
theorem entry?_withoutFiles (files : d.AreFiles gone) (place : Place) :
    Disk.entry? (d.withoutFiles gone) place = if place ∈ gone then none else d.entry? place := by
  rw [Disk.entry?, Disk.entry?]
  by_cases isRoot : place = []
  · rw [if_pos isRoot, if_pos isRoot, if_neg fun member => files.inner member isRoot]
  · rw [if_neg isRoot, if_neg isRoot, withoutFiles, lookup_filter d.entries fun other => !gone.contains other]
    by_cases member : place ∈ gone <;> simp [member]

theorem isDirAt_withoutFiles (files : d.AreFiles gone) (place : Place) :
    (d.withoutFiles gone).isDirAt place = d.isDirAt place := by
  rw [Bool.eq_iff_iff, isDirAt_iff, isDirAt_iff, entry?_withoutFiles files]
  split_ifs with member
  · obtain ⟨file, isFile⟩ := files place member
    rw [file?_eq_some.mp isFile]
    simp
  · exact Iff.rfl

theorem file?_withoutFiles (files : d.AreFiles gone) :
    (d.withoutFiles gone).file? place = some file ↔ d.file? place = some file ∧ place ∉ gone := by
  rw [file?_eq_some, file?_eq_some, entry?_withoutFiles files]
  split_ifs with member <;> simp [member]

theorem follow_withoutFiles (files : d.AreFiles gone) (kept : place ∉ gone) {components : List String}
    {here : Place} (followed : d.follow here components = .ok place) :
    (d.withoutFiles gone).follow here components = .ok place := by
  induction components generalizing here with
  | nil => exact followed
  | cons c rest ih =>
    rw [follow_cons] at followed ⊢
    rw [isDirAt_withoutFiles files]
    split_ifs at followed ⊢ with isDir blank up long nothing gone_
    · exact ih followed
    · exact ih followed
    · -- what is given up is a file, so the path would end here
      rw [entry?_withoutFiles files] at nothing
      split_ifs at nothing with member
      · obtain ⟨file, isFile⟩ := files _ member
        have noDir : d.isDirAt (here ++ [c]) = false := by
          rw [← Bool.not_eq_true, isDirAt_iff, file?_eq_some.mp isFile]
          simp
        cases rest with
        | nil =>
          cases followed
          exact absurd member kept
        | cons next rest =>
          rw [follow_cons, noDir] at followed
          cases followed
      · exact absurd nothing gone_
    · exact ih followed

/-- **The other places** are found as before. -/
theorem place_withoutFiles_iff (files : d.AreFiles gone) (kept : place ∉ gone) :
    (d.withoutFiles gone).place path = .ok place ↔ d.place path = .ok place := by
  constructor
  · refine place_mono rfl (fun q isDir => ?_) fun q nothing => ?_
    · rwa [isDirAt_withoutFiles files] at isDir
    · rw [entry?_withoutFiles files, nothing, ite_self]
  · intro found
    rw [Disk.place] at found ⊢
    split at found
    · cases found
    · exact follow_withoutFiles files kept found

theorem fileAt_withoutFiles_iff (files : d.AreFiles gone) :
    (d.withoutFiles gone).FileAt path place file ↔ d.FileAt path place file ∧ place ∉ gone := by
  rw [FileAt, FileAt, file?_withoutFiles files]
  constructor
  · rintro ⟨found, isFile, kept⟩
    exact ⟨⟨(place_withoutFiles_iff files kept).mp found, isFile⟩, kept⟩
  · rintro ⟨⟨found, isFile⟩, kept⟩
    exact ⟨(place_withoutFiles_iff files kept).mpr found, isFile, kept⟩

/-- **Without some of its files** a disk is as proper as before. -/
theorem IsProper.withoutFiles (proper : d.IsProper) (files : d.AreFiles gone) :
    (d.withoutFiles gone).IsProper where
  cwd := (isDirAt_withoutFiles files _).trans proper.cwd
  parents other member :=
    (isDirAt_withoutFiles files _).trans (proper.parents other (List.mem_filter.mp member).1)
  some_ other member := proper.some_ other (List.mem_filter.mp member).1
  named other member := proper.named other (List.mem_filter.mp member).1
  unique := proper.unique.sublist (List.filter_sublist.map _)

end Disk

/-! ### Removing one after the other -/

open Disk (AreFiles FileAt)

/-- The places that the removed paths name. -/
def Cleaning.gone (done : Cleaning) (d : Disk) : List Place :=
  done.removed.map d.spot

/-- Files were removed under their paths, no two of them at one place, and nothing else happened to the
disk. -/
structure Cleaning.IsRemoval (done : Cleaning) (d : Disk) : Prop where
  failure : done.failure = none
  leads : ∀ path ∈ done.removed, ∃ file, d.FileAt path (d.spot path) file
  unique : (done.gone d).Nodup
  disk : done.disk = d.withoutFiles (done.gone d)

/-- What was removed by the one and then by the other. -/
def Cleaning.followedBy (first second : Cleaning) : Cleaning :=
  { second with removed := first.removed ++ second.removed }

namespace Cleaning.IsRemoval

variable {d : Disk} {first second : Cleaning}

theorem nothing (d : Disk) : IsRemoval ⟨[], none, d⟩ d :=
  ⟨rfl, List.forall_mem_nil _, .nil, (d.withoutFiles_nil).symm⟩

theorem files (removal : first.IsRemoval d) : d.AreFiles (first.gone d) := by
  refine List.forall_mem_map.mpr fun path member => ?_
  obtain ⟨file, isAt⟩ := removal.leads path member
  exact ⟨file, isAt.2⟩

theorem spot_eq (removal : first.IsRemoval d) : first.disk.spot = d.spot := by
  rw [removal.disk]
  rfl

theorem gone_followedBy (removal : first.IsRemoval d) :
    (first.followedBy second).gone d = first.gone d ++ second.gone first.disk := by
  rw [gone, gone, gone, removal.spot_eq, followedBy, List.map_append]

/-- What is removed after other files is removed from the disk without them. -/
theorem followedBy (removal : first.IsRemoval d) (later : second.IsRemoval first.disk) :
    (first.followedBy second).IsRemoval d := by
  have kept : ∀ path ∈ second.removed, ∃ file, d.FileAt path (d.spot path) file ∧
      d.spot path ∉ first.gone d := by
    intro path member
    obtain ⟨file, isAt⟩ := later.leads path member
    rw [removal.spot_eq, removal.disk, Disk.fileAt_withoutFiles_iff removal.files] at isAt
    exact ⟨file, isAt⟩
  refine ⟨later.failure, List.forall_mem_append.mpr ⟨removal.leads, fun path member => ?_⟩, ?_, ?_⟩
  · obtain ⟨file, isAt, -⟩ := kept path member
    exact ⟨file, isAt⟩
  · rw [removal.gone_followedBy, List.nodup_append]
    refine ⟨removal.unique, later.unique, fun place member other isLater same => ?_⟩
    obtain ⟨path, isPath, rfl⟩ := List.mem_map.mp isLater
    obtain ⟨-, -, away⟩ := kept path isPath
    rw [removal.spot_eq] at same
    exact away (same ▸ member)
  · rw [removal.gone_followedBy, Disk.withoutFiles_append, ← removal.disk, ← later.disk]
    rfl

end Cleaning.IsRemoval

namespace Disk

/-- **Files at places of their own** are all removed. -/
theorem isRemoval_removeEach {paths : List String} : ∀ {d : Disk},
    (∀ path ∈ paths, ∃ file, d.FileAt path (d.spot path) file) → (paths.map d.spot).Nodup →
      (d.removeEach paths).IsRemoval d ∧ (d.removeEach paths).removed = paths := by
  induction paths with
  | nil => exact fun _ _ => ⟨.nothing _, rfl⟩
  | cons path paths ih =>
    intro d leads unique
    obtain ⟨⟨file, found, isFile⟩, others⟩ := List.forall_mem_cons.mp leads
    obtain ⟨fresh, unique⟩ := List.nodup_cons.mp unique
    have removed : d.remove path = .ok (d.drop (d.spot path)) := by
      rw [remove, found]
      simp only [file?_eq_some.mp isFile]
    have single : Cleaning.IsRemoval ⟨[path], none, d.drop (d.spot path)⟩ d :=
      ⟨rfl, List.forall_mem_singleton.mpr ⟨file, found, isFile⟩, List.pairwise_singleton _ _, d.drop_eq _⟩
    have leads' : ∀ other ∈ paths, ∃ file, (d.drop (d.spot path)).FileAt other (d.spot other) file := by
      intro other member
      obtain ⟨file', isAt⟩ := others other member
      refine ⟨file', ?_⟩
      have here : d.AreFiles [d.spot path] := single.files
      rw [drop_eq, fileAt_withoutFiles_iff here]
      refine ⟨isAt, fun gone => fresh ?_⟩
      rw [← List.mem_singleton.mp gone]
      exact List.mem_map_of_mem member
    obtain ⟨later, all⟩ := ih leads' unique
    have whole := single.followedBy later
    rw [removeEach, removed]
    exact ⟨whole, congrArg (path :: ·) all⟩

/-! ### Names of files -/

variable {d : Disk} {path : String} {place : Place} {file : File}

/-- A path that leads to a file ends with the name of the file. -/
theorem IsTree.base_eq (tree : d.IsTree) (isAt : d.FileAt path place file) :
    place.getLast? = some (Path.base path) := by
  obtain ⟨found, isFile⟩ := isAt
  have notDir : ¬d.isDirAt place = true := by
    rw [isDirAt_iff, file?_eq_some.mp isFile]
    simp
  obtain ⟨front, c, isWritten⟩ := (Path.written path).eq_nil_or_concat'.resolve_left (Text.split_ne_nil '/' path)
  have isLast : c ∈ Path.written path := isWritten ▸ List.mem_append_right front (List.mem_singleton_self c)
  rw [Disk.place] at found
  split at found
  · cases found
  · rw [isWritten, follow_append] at found
    split at found
    · cases found
    · next middle reached =>
      rw [follow_cons] at found
      split_ifs at found with isDir blank up long nothing
      · -- behind a blank or a parent component there are directories only
        cases found
        exact absurd isDir notDir
      · cases found
        refine absurd ?_ notDir
        by_cases same : middle.dropLast = middle
        · rwa [same]
        · exact tree.isDirAt (isDirAt_iff.mp isDir) (List.dropLast_prefix middle) same
      · cases found
        rw [List.getLast?_concat]
        refine congrArg some (Path.base_of_ending (Text.not_mem_of_mem_split isLast)
          (fun empty => blank (.inl empty)) ?_).symm
        have chars := congrArg String.toList (Path.join_written path)
        rw [isWritten, Path.slash_eq, Text.toList_join, List.map_append, List.map_singleton] at chars
        by_cases alone : front = []
        · left
          rw [← chars, alone]
          rfl
        · right
          exact ⟨_, chars.symm.trans (Text.joinWith_concat (List.map_eq_nil_iff.not.mpr alone) _)⟩

end Disk

end Forwarder
