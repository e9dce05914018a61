/-
**Descriptors are read again.** What a directory of descriptors describes depends on the descriptor files
in it alone. As long as these hold the same, the same is described, whatever else is written to the disk.

* `DescriptorLoader.KeepsDescriptors` — the descriptor files of two disks hold the same.
* `DescriptorLoader.filesIn_eq`, `surfacesOf_eq` — the files of a directory, and what one of them describes.
* **`DescriptorLoader.surfacesIn_eq`** — what the directories describe.
* **`TypeLoader.atFirst_eq`** — the surfaces of types.
* `TypeLoader.atFirst_of_misdescribed` — where a directory cannot be read, there are no surfaces.
-/

import Forwarder.Proofs.Disk.Proper
import Forwarder.Proofs.Loading.RunLoader
import Forwarder.Proofs.Text.Order

namespace Forwarder

open Forwarder.Path (IsEntryName)

variable {d e : Disk} {dirs roots paths : List String} {out place : Place} {dir name path : String}

namespace Disk

/-! ### Names in directories -/

/-- The place is that of the name in the directory. -/
theorem eq_concat_of_listed {other : Place}
    (listed : (if other.dropLast = place then other.getLast? else none) = some name) :
    other = place ++ [name] := by
  split_ifs at listed with isBelow
  rw [← isBelow, List.dropLast_append_getLast? name listed]

theorem mem_namesIn : name ∈ d.namesIn place ↔ ∃ entry, (place ++ [name], entry) ∈ d.entries := by
  rw [namesIn, List.mem_filterMap]
  constructor
  · rintro ⟨⟨other, entry⟩, member, here⟩
    exact ⟨entry, eq_concat_of_listed here ▸ member⟩
  · rintro ⟨entry, member⟩
    refine ⟨_, member, ?_⟩
    dsimp only
    rw [List.dropLast_concat, if_pos rfl, List.getLast?_concat]

theorem IsProper.nodup_namesIn (proper : d.IsProper) (place : Place) : (d.namesIn place).Nodup := by
  have listed : d.namesIn place = (d.entries.map (·.1)).filterMap fun other =>
      if other.dropLast = place then other.getLast? else none := by
    rw [List.filterMap_map]
    rfl
  rw [listed]
  refine proper.unique.filterMap fun other another name isName isName' => ?_
  rw [eq_concat_of_listed isName, eq_concat_of_listed isName']

/-- The descriptor files of the two disks hold the same. -/
def KeepsDescriptors (d e : Disk) : Prop :=
  ∀ place name, isDescriptorFile name = true →
    (e.file? (place ++ [name])).map (·.content) = (d.file? (place ++ [name])).map (·.content)

theorem KeepsDescriptors.isSome (keeps : d.KeepsDescriptors e) (isDescriptor : isDescriptorFile name = true)
    (place : Place) : (e.file? (place ++ [name])).isSome = (d.file? (place ++ [name])).isSome := by
  rw [← Option.isSome_map (f := (·.content)), keeps place name isDescriptor, Option.isSome_map]

end Disk

open Disk (Grown KeepsDescriptors)

namespace DescriptorLoader

/-! ### Directories of descriptors -/

/-- The names of the descriptor files in a directory. -/
def namesOf (d : Disk) (place : Place) : List String :=
  (d.namesIn place).filter fun name => isDescriptorFile name && (d.file? (place ++ [name])).isSome

theorem mem_namesOf (proper : d.IsProper) :
    name ∈ namesOf d place ↔ isDescriptorFile name = true ∧ (d.file? (place ++ [name])).isSome = true := by
  rw [namesOf, List.mem_filter, Bool.and_eq_true, and_iff_right_iff_imp]
  rintro ⟨-, isFile⟩
  obtain ⟨file, isFile⟩ := Option.isSome_iff_exists.mp isFile
  exact Disk.mem_namesIn.mpr ⟨_, proper.file?_eq_some_iff.mp isFile⟩

theorem perm_namesOf (proper : d.IsProper) (proper' : e.IsProper) (keeps : d.KeepsDescriptors e)
    (place : Place) : (namesOf e place).Perm (namesOf d place) := by
  refine (List.perm_ext_iff_of_nodup ((proper'.nodup_namesIn place).filter _)
    ((proper.nodup_namesIn place).filter _)).mpr fun name => ?_
  change name ∈ namesOf e place ↔ name ∈ namesOf d place
  rw [mem_namesOf proper', mem_namesOf proper]
  exact and_congr_right fun isDescriptor => by rw [keeps.isSome isDescriptor]

/-- The descriptor files of a directory that is there. -/
theorem filesIn_eq_ok : filesIn d dir = .ok paths ↔ d.place dir = .ok (d.spot dir) ∧
    d.isDirAt (d.spot dir) = true ∧
    paths = Text.sorted ((namesOf d (d.spot dir)).map fun name => Path.join [dir, name]) := by
  rw [filesIn]
  dsimp only
  cases isPlace : d.place dir with
  | error refusal => simp
  | ok place =>
    obtain rfl := Disk.spot_of_place isPlace
    by_cases isDir : d.isDirAt (d.spot dir) = true
    · simp only [isDir, if_true, Except.ok.injEq, true_and]
      exact eq_comm
    · simp [isDir]

/-- **The files of a directory** are the same. -/
theorem filesIn_eq (proper : d.IsProper) (proper' : e.IsProper) (grown : Grown out d e)
    (keeps : d.KeepsDescriptors e) (found : filesIn d dir = .ok paths) : filesIn e dir = .ok paths := by
  obtain ⟨isPlace, isDir, rfl⟩ := filesIn_eq_ok.mp found
  have same : e.spot dir = d.spot dir := (Disk.spot_of_place (grown.place_eq isPlace)).symm
  refine filesIn_eq_ok.mpr ⟨?_, ?_, ?_⟩
  · rw [same]
    exact grown.place_eq isPlace
  · rw [same]
    exact Disk.isDirAt_iff.mpr (grown.dirs _ (Disk.isDirAt_iff.mp isDir))
  · rw [same]
    exact Text.sorted_of_perm ((perm_namesOf proper proper' keeps _).map _).symm

/-- A descriptor file that was read. -/
theorem exists_fileAt {surfaces : List Surface} (found : surfacesOf d path = .ok surfaces) :
    ∃ place file, d.FileAt path place file ∧ Descriptor.decode file.content.asText = .ok surfaces := by
  unfold surfacesOf at found
  split at found
  · cases found
  · next text isText =>
    obtain ⟨place, file, isAt, rfl⟩ := Disk.fileAt_of_readFile isText
    refine ⟨place, file, isAt, ?_⟩
    split at found
    · next decoded => rw [decoded, Except.ok.inj found]
    · cases found

/-- **A descriptor file** describes the same. -/
theorem surfacesOf_eq (proper : d.IsProper) (grown : Grown out d e) (keeps : d.KeepsDescriptors e)
    {surfaces : List Surface} (isName : name ∈ namesOf d (d.spot dir))
    (found : surfacesOf d (Path.join [dir, name]) = .ok surfaces) :
    surfacesOf e (Path.join [dir, name]) = .ok surfaces := by
  obtain ⟨isDescriptor, isThere⟩ := (mem_namesOf proper).mp isName
  obtain ⟨listed, isListed⟩ := Option.isSome_iff_exists.mp isThere
  have isEntry : IsEntryName name := (proper.isNamed (Disk.file?_eq_some.mp isListed) name
    (List.mem_append_right _ (List.mem_singleton_self _))).1
  have isWritten : Path.written name = [name] := by
    have split : Text.split '/' (Text.join (String.singleton '/') [name]) = [name] :=
      Text.split_join (List.forall_mem_singleton.mpr isEntry.free) (List.cons_ne_nil _ _)
    rwa [Text.join, String.intercalate_singleton] at split
  have relative : Path.isAbsolute name = false := by
    refine Bool.eq_false_iff.mpr fun absolute => ?_
    obtain ⟨rest, isText⟩ := Path.isAbsolute_iff.mp absolute
    exact isEntry.free (isText ▸ List.mem_cons_self)
  obtain ⟨place, file, ⟨leads, isFile⟩, decoded⟩ := exists_fileAt found
  have isPlace : place = d.spot dir ++ [name] := by
    rw [Disk.spot_of_place leads, d.spot_join dir relative isEntry.some_, isWritten,
      Path.goal_names (List.forall_mem_singleton.mpr isEntry)]
  have content := keeps (d.spot dir) name isDescriptor
  rw [← isPlace, isFile, Option.map_some, Option.map_eq_some_iff] at content
  obtain ⟨other, isOther, same⟩ := content
  have isAt : e.FileAt (Path.join [dir, name]) place other := ⟨grown.place_eq leads, isOther⟩
  rw [surfacesOf, isAt.readFile]
  dsimp only
  rw [same, decoded]

/-- Several descriptor files describe the same. -/
theorem surfacesOfAll_eq {paths : List String}
    (same : ∀ path ∈ paths, ∀ surfaces, surfacesOf d path = .ok surfaces → surfacesOf e path = .ok surfaces) :
    ∀ {surfaces : List Surface}, surfacesOfAll d paths = .ok surfaces →
      surfacesOfAll e paths = .ok surfaces := by
  induction paths with
  | nil => exact id
  | cons path paths ih =>
    intro surfaces found
    obtain ⟨first, others⟩ := List.forall_mem_cons.mp same
    rw [surfacesOfAll] at found ⊢
    cases isHere : surfacesOf d path with
    | error failure =>
      rw [isHere] at found
      cases found
    | ok here =>
      cases isLater : surfacesOfAll d paths with
      | error failure =>
        rw [isHere, isLater] at found
        cases found
      | ok later =>
        rw [isHere, isLater] at found
        rw [first here isHere, ih others isLater]
        exact found

/-- **What the directories describe**, they still describe. -/
theorem surfacesIn_eq (proper : d.IsProper) (proper' : e.IsProper) (grown : Grown out d e)
    (keeps : d.KeepsDescriptors e) : ∀ {dirs : List String} {surfaces : List Surface},
      surfacesIn d dirs = .ok surfaces → surfacesIn e dirs = .ok surfaces := by
  intro dirs
  induction dirs with
  | nil => exact id
  | cons dir dirs ih =>
    intro surfaces found
    rw [surfacesIn] at found ⊢
    cases isListed : filesIn d dir with
    | error failure =>
      rw [isListed] at found
      cases found
    | ok paths =>
      cases isHere : surfacesOfAll d paths with
      | error failure =>
        rw [isListed] at found
        dsimp only at found
        rw [isHere] at found
        cases found
      | ok here =>
        cases isLater : surfacesIn d dirs with
        | error failure =>
          rw [isListed] at found
          dsimp only at found
          rw [isHere, isLater] at found
          cases found
        | ok later =>
          have still : surfacesOfAll e paths = .ok here := by
            refine surfacesOfAll_eq (fun path member surfaces => ?_) isHere
            obtain ⟨-, -, rfl⟩ := filesIn_eq_ok.mp isListed
            obtain ⟨name, isName, rfl⟩ := List.mem_map.mp (Text.mem_sorted.mp member)
            exact surfacesOf_eq proper grown keeps isName
          rw [isListed] at found
          rw [filesIn_eq proper proper' grown keeps isListed]
          dsimp only at found ⊢
          rw [isHere, isLater] at found
          rw [still, ih isLater]
          exact found

/-! ### Directories that cannot be read -/

theorem code_of_filesIn {failure : Failure} (unread : filesIn d dir = .error failure) :
    failure.hasCode .unresolved = false := by
  unfold filesIn at unread
  dsimp only at unread
  split at unread
  · cases unread
    rfl
  · split at unread
    · cases unread
    · cases unread
      rfl

theorem code_of_surfacesOf {failure : Failure} (unread : surfacesOf d path = .error failure) :
    failure.hasCode .unresolved = false := by
  unfold surfacesOf at unread
  split at unread
  · cases unread
    rfl
  · split at unread
    · cases unread
    · cases unread
      rfl

theorem code_of_surfacesOfAll {failure : Failure} : ∀ {paths : List String},
    surfacesOfAll d paths = .error failure → failure.hasCode .unresolved = false := by
  intro paths
  induction paths with
  | nil => exact fun unread => (by cases unread)
  | cons path paths ih =>
    intro unread
    rw [surfacesOfAll] at unread
    split at unread
    · next isHere =>
      cases unread
      exact code_of_surfacesOf isHere
    · split at unread
      · next isLater =>
        cases unread
        exact ih isLater
      · cases unread

/-- A directory that cannot be read is no type that is not found. -/
theorem code_of_surfacesIn {failure : Failure} : ∀ {dirs : List String},
    surfacesIn d dirs = .error failure → failure.hasCode .unresolved = false := by
  intro dirs
  induction dirs with
  | nil => exact fun unread => (by cases unread)
  | cons dir dirs ih =>
    intro unread
    rw [surfacesIn] at unread
    split at unread
    · next isListed =>
      cases unread
      exact code_of_filesIn isListed
    · split at unread
      · next isHere =>
        cases unread
        exact code_of_surfacesOfAll isHere
      · split at unread
        · next isLater =>
          cases unread
          exact ih isLater
        · cases unread

end DescriptorLoader

/-! ### Surfaces -/

namespace TypeLoader

/-- **The surfaces of types** are the same if the same is described and the source path is left alone. -/
theorem atFirst_eq (undisturbed : d.Undisturbed e roots)
    (same : DescriptorLoader.surfacesIn e dirs = DescriptorLoader.surfacesIn d dirs)
    (relative : IsRelativeName name) : atFirst e dirs roots name = atFirst d dirs roots name := by
  have faithful : (SourceLoader.ofRoots roots).Faithful d roots :=
    SourceLoader.faithful_sharing (Reader.faithful_fresh d) roots
  have chain : FaithfulChain d dirs roots e (described dirs ++ [.sources (.ofRoots roots)]) :=
    ⟨_, _, rfl, describes_described same, faithful, List.forall_mem_nil _⟩
  exact (chain.load_eq Library.closesAlways_relative undisturbed relative).1

/-- Where a directory cannot be read, there are no surfaces. -/
theorem atFirst_of_misdescribed {failure : Failure}
    (misdescribed : DescriptorLoader.surfacesIn d dirs = .error failure) (roots : List String)
    (name : String) : atFirst d dirs roots name = .error failure := by
  have some_ : ¬dirs.isEmpty = true := fun none_ => by
    rw [List.isEmpty_iff.mp none_] at misdescribed
    cases misdescribed
  have asked : ((DescriptorLoader.ofDirs dirs).load d name).1 = .error failure := by
    have described : (DescriptorLoader.ofDirs dirs).described d = .error failure := misdescribed
    rw [DescriptorLoader.load, described]
  rw [atFirst, described, if_neg some_]
  simp only [List.cons_append, List.nil_append]
  rw [loadFirst, load]
  simp only [Bool.false_eq_true, if_false]
  generalize (DescriptorLoader.ofDirs dirs).load d name = outcome at asked ⊢
  obtain ⟨result, l⟩ := outcome
  obtain rfl : result = .error failure := asked
  dsimp only
  rw [DescriptorLoader.code_of_surfacesIn misdescribed]
  rfl

end TypeLoader

end Forwarder
