/-
**What a run may do to a disk.** Below the output directory files are created and replaced, and
directories are made there and on the way to it. Nothing else changes, so every file that is not below
the output directory is found, or not found, as before.

* `IsUnitPlace`, `IsFolderPlace` — where files are written and directories are made.
* `Disk.Grown` — one disk has come from another in this way; `Grown.trans` — in several steps.
* `Disk.FileAt` — a path leads to a file; it is all that opening a file and its state depend on.
* `Disk.SameAt` — a path leads to the same file on two disks, if any.
* `Grown.place_eq` — what a path leads to, it still leads to.
* **`Grown.sameAt`** — so does a path that does not turn back behind a name.
* **`Grown.writeFailure?_eq`** — what keeps a file from being written is the same as before.
* `Grown.write` — writing goes on in this way.
-/

import Forwarder.Proofs.Disk.Writing

namespace Forwarder

/-- A file of the output may be at the place: it is below the output directory, and its name has a
point. -/
def IsUnitPlace (out place : Place) : Prop :=
  ∃ front name, place = out ++ front ++ [name] ∧ '.' ∈ name.toList

/-- A directory of the output may be at the place: it is the output directory or above it, or it is below
and its name has no point. -/
def IsFolderPlace (out place : Place) : Prop :=
  place <+: out ∨ ∃ front name, place = out ++ front ++ [name] ∧ '.' ∉ name.toList

theorem IsUnitPlace.not_folder {out place : Place} (isUnit : IsUnitPlace out place) :
    ¬IsFolderPlace out place := by
  obtain ⟨front, name, rfl, point⟩ := isUnit
  rintro (above | ⟨front', name', same, noPoint⟩)
  · have shorter := above.length_le
    simp only [List.length_append, List.length_singleton] at shorter
    omega
  · have last := (List.append_inj' same rfl).2
    rw [List.singleton_inj] at last
    exact noPoint (last ▸ point)

/-- What is above a place strictly below the output directory, behind names without a point. -/
theorem isFolderPlace_of_prefix {out front above : Place} (plain : ∀ c ∈ front, '.' ∉ c.toList)
    (isAbove : above <+: out ++ front) : IsFolderPlace out above := by
  rcases List.prefix_or_prefix_of_prefix isAbove (List.prefix_append out front) with higher | lower
  · exact .inl higher
  obtain ⟨rest, rfl⟩ := lower
  rcases List.eq_nil_or_concat rest with rfl | ⟨before, name, rfl⟩
  · exact .inl (by simp)
  · rw [List.concat_eq_append] at isAbove ⊢
    have member : name ∈ front := ((List.prefix_append_right_inj out).mp isAbove).subset
      (List.mem_append_right _ (List.mem_singleton_self _))
    exact .inr ⟨before, name, (List.append_assoc ..).symm, plain name member⟩

namespace Disk

variable {d e f : Disk} {out place : Place} {path : String}

/-- One disk has come from another by writing below an output directory. -/
structure Grown (out : Place) (d e : Disk) : Prop where
  cwd : e.cwd = d.cwd
  dirs : ∀ place, d.entry? place = some .dir → e.entry? place = some .dir
  files : ∀ place file, d.file? place = some file →
    ∃ other, e.file? place = some other ∧ (¬IsUnitPlace out place → other = file)
  newDirs : ∀ place, d.entry? place = none → e.entry? place = some .dir → IsFolderPlace out place
  newFiles : ∀ place file, d.entry? place = none → e.file? place = some file → IsUnitPlace out place

theorem entry_cases (d : Disk) (place : Place) : d.entry? place = none ∨
    d.entry? place = some .dir ∨ ∃ file, d.file? place = some file := by
  cases found : d.entry? place with
  | none => exact .inl rfl
  | some entry =>
    cases entry with
    | dir => exact .inr (.inl rfl)
    | file file => exact .inr (.inr ⟨file, file?_eq_some.mpr found⟩)

namespace Grown

theorem refl (out : Place) (d : Disk) : Grown out d d where
  cwd := rfl
  dirs _ := id
  files _ file found := ⟨file, found, fun _ => rfl⟩
  newDirs _ nothing found := by rw [nothing] at found; cases found
  newFiles _ _ nothing found := by rw [file?_eq_some, nothing] at found; cases found

theorem trans (first : Grown out d e) (second : Grown out e f) : Grown out d f where
  cwd := second.cwd.trans first.cwd
  dirs place found := second.dirs place (first.dirs place found)
  files place file found := by
    obtain ⟨middle, found', same⟩ := first.files place file found
    obtain ⟨last, found'', same'⟩ := second.files place middle found'
    exact ⟨last, found'', fun away => (same' away).trans (same away)⟩
  newDirs place nothing found := by
    rcases e.entry_cases place with nothing' | isDir | ⟨file, isFile⟩
    · exact second.newDirs place nothing' found
    · exact first.newDirs place nothing isDir
    · obtain ⟨other, isFile', -⟩ := second.files place file isFile
      rw [file?_eq_some, found] at isFile'
      cases isFile'
  newFiles place file nothing found := by
    rcases e.entry_cases place with nothing' | isDir | ⟨other, isFile⟩
    · exact second.newFiles place file nothing' found
    · have isDir' := second.dirs place isDir
      rw [file?_eq_some, isDir'] at found
      cases found
    · exact first.newFiles place other nothing isFile

/-- Making directories of the output. -/
theorem of_dug {places : Place → Prop} (dug : Dug places d e)
    (folders : ∀ place, places place → IsFolderPlace out place) : Grown out d e where
  cwd := dug.cwd
  dirs place found := isDirAt_iff.mp (dug.isDirAt (isDirAt_iff.mpr found))
  files place file found := ⟨file, (dug.file? place).trans found, fun _ => rfl⟩
  newDirs place nothing found := by
    rcases dug.entry place with same | ⟨isPlace, -, -⟩
    · rw [same, nothing] at found
      cases found
    · exact folders place isPlace
  newFiles place file nothing found := by
    rw [dug.file?, file?_eq_some, nothing] at found
    cases found

/-- Writing a file of the output. -/
theorem of_written {text : String} (written : WrittenAt d place text e)
    (isUnit : IsUnitPlace out place)
    (folders : ∀ above, above <+: place → above ≠ place → IsFolderPlace out above) :
    Grown out d e := by
  obtain ⟨made, dug, -, noDir, others⟩ := written.others
  have first : Grown out d made := of_dug dug fun above ⟨isAbove, other⟩ => folders above isAbove other
  have second : Grown out made e := by
    refine ⟨written.cwd.trans dug.cwd.symm, fun q found => ?_, fun q file found => ?_,
      fun q nothing found => ?_, fun q file nothing found => ?_⟩
    · have away : q ≠ place := fun same => by
        rw [← same, isDirAt, found] at noDir
        cases noDir
      rw [others q away, found]
    · by_cases same : q = place
      · exact ⟨_, same ▸ written.file, fun away => absurd (same ▸ isUnit) away⟩
      · refine ⟨file, ?_, fun _ => rfl⟩
        rw [file?_eq_some] at found ⊢
        rw [others q same, found]
    · by_cases same : q = place
      · have isFile := written.file
        rw [file?_eq_some, ← same, found] at isFile
        cases isFile
      · rw [others q same, nothing] at found
        cases found
    · by_cases same : q = place
      · exact same ▸ isUnit
      · rw [file?_eq_some, others q same, nothing] at found
        cases found
  exact first.trans second

end Grown

/-! ### Files that are not below the output -/

/-- The path leads to the file, at the place. -/
def FileAt (d : Disk) (path : String) (place : Place) (file : File) : Prop :=
  d.place path = .ok place ∧ d.file? place = some file

theorem resolve_eq_file {file : File} :
    d.resolve path = .ok (.file file) ↔ ∃ place, d.FileAt path place file := by
  simp only [resolve_eq_ok, FileAt, file?_eq_some]

theorem isFile_iff : d.isFile path = true ↔ ∃ place file, d.FileAt path place file := by
  rw [isFile]
  constructor
  · intro found
    split at found
    · next file resolved =>
      obtain ⟨place, isAt⟩ := resolve_eq_file.mp resolved
      exact ⟨place, file, isAt⟩
    · cases found
  · rintro ⟨place, file, isAt⟩
    rw [resolve_eq_file.mpr ⟨place, isAt⟩]

namespace FileAt

variable {file : File}

theorem openFile (isAt : d.FileAt path place file) : d.openFile path = .ok file := by
  rw [Disk.openFile, lookUp, resolve_eq_file.mpr ⟨place, isAt⟩]

theorem readFile (isAt : d.FileAt path place file) : d.readFile path = .ok file.content.asText := by
  rw [Disk.readFile, isAt.openFile]

theorem stat (isAt : d.FileAt path place file) : d.stat path = .ok (.file file) := by
  rw [Disk.stat, lookUp, resolve_eq_file.mpr ⟨place, isAt⟩]

theorem fingerprint (isAt : d.FileAt path place file) :
    d.fingerprint path = .ok (.file file.stamp file.content.size) := by
  rw [Disk.fingerprint, isAt.1]
  simp only [isAt.2]

end FileAt

theorem fileAt_of_readFile {text : String} (read : d.readFile path = .ok text) :
    ∃ place file, d.FileAt path place file ∧ file.content.asText = text := by
  rw [readFile, openFile, lookUp] at read
  cases resolved : d.resolve path with
  | error refusal => rw [resolved] at read; cases read
  | ok entry =>
    rw [resolved] at read
    cases entry with
    | dir => cases read
    | file file =>
      cases read
      obtain ⟨place, isAt⟩ := resolve_eq_file.mp resolved
      exact ⟨place, file, isAt, rfl⟩

theorem fileAt_of_fingerprint {stamp : Stamp} {size : Nat}
    (state : d.fingerprint path = .ok (.file stamp size)) :
    ∃ place file, d.FileAt path place file ∧ file.stamp = stamp ∧ file.content.size = size := by
  rw [fingerprint] at state
  split at state
  · cases state
  · next place found =>
    split at state
    · next file isFile =>
      cases state
      exact ⟨place, file, ⟨found, isFile⟩, rfl, rfl⟩
    · cases state

theorem isDir_iff : d.isDir path = true ↔ ∃ place, d.place path = .ok place ∧ d.isDirAt place = true := by
  rw [isDir, resolve]
  constructor
  · intro found
    cases isPlace : d.place path with
    | error refusal =>
      rw [isPlace] at found
      cases found
    | ok place =>
      refine ⟨place, rfl, ?_⟩
      rcases d.entry_cases place with nothing | isDir | ⟨file, isFile⟩
      · simp only [isPlace, nothing] at found
        cases found
      · exact isDirAt_iff.mpr isDir
      · simp only [isPlace, file?_eq_some.mp isFile] at found
        cases found
  · rintro ⟨place, isPlace, isDir⟩
    simp only [isPlace, isDirAt_iff.mp isDir]

/-- The path leads to the same file of both disks, or to no file of either. -/
def SameAt (d e : Disk) (path : String) : Prop :=
  ∀ place file, e.FileAt path place file ↔ d.FileAt path place file

namespace SameAt

theorem refl (d : Disk) (path : String) : d.SameAt d path :=
  fun _ _ => Iff.rfl

theorem isFile (same : d.SameAt e path) : e.isFile path = d.isFile path := by
  rw [Bool.eq_iff_iff, isFile_iff, isFile_iff]
  exact exists_congr fun place => exists_congr fun file => same place file

theorem fileAt (same : d.SameAt e path) (isFile : d.isFile path = true) :
    ∃ place file, d.FileAt path place file ∧ e.FileAt path place file := by
  obtain ⟨place, file, isAt⟩ := isFile_iff.mp isFile
  exact ⟨place, file, isAt, (same place file).mpr isAt⟩

theorem openFile (same : d.SameAt e path) (isFile : d.isFile path = true) :
    e.openFile path = d.openFile path := by
  obtain ⟨place, file, before, after⟩ := same.fileAt isFile
  rw [before.openFile, after.openFile]

theorem readFile (same : d.SameAt e path) (isFile : d.isFile path = true) :
    e.readFile path = d.readFile path := by
  rw [Disk.readFile, Disk.readFile, same.openFile isFile]

theorem stat (same : d.SameAt e path) (isFile : d.isFile path = true) : e.stat path = d.stat path := by
  obtain ⟨place, file, before, after⟩ := same.fileAt isFile
  rw [before.stat, after.stat]

theorem fingerprint (same : d.SameAt e path) (isFile : d.isFile path = true) :
    e.fingerprint path = d.fingerprint path := by
  obtain ⟨place, file, before, after⟩ := same.fileAt isFile
  rw [before.fingerprint, after.fingerprint]

end SameAt

section Follow

variable {components : List String} {here : Place}

/-- Without parent components one gets further down only. -/
theorem prefix_goal (down : ∀ c ∈ components, c ≠ "..") : here <+: Path.goal here components := by
  induction components generalizing here with
  | nil => exact List.prefix_refl _
  | cons c rest ih =>
    obtain ⟨first, others⟩ := List.forall_mem_cons.mp down
    have further : here <+: Path.advance here c := by
      rw [Path.advance]
      split_ifs
      · exact List.prefix_refl _
      · exact List.prefix_append _ _
    exact further.trans (ih others)

/-- Components that lead down to something on the tree can be followed there, if they can be followed on
some disk on which they do not lead to a directory. -/
theorem IsTree.follow_down {entry : Entry} (tree : d.IsTree) (down : ∀ c ∈ components, c ≠ "..")
    (found : d.entry? place = some entry) (noDir : e.isDirAt place = false)
    (followed : e.follow here components = .ok place) : d.follow here components = .ok place := by
  induction components generalizing here with
  | nil => exact followed
  | cons c rest ih =>
    obtain ⟨first, others⟩ := List.forall_mem_cons.mp down
    have isGoal := eq_goal_of_follow followed
    rw [follow_cons] at followed ⊢
    by_cases isDir : e.isDirAt here = true
    · have other : here ≠ place := fun same => by
        rw [same, noDir] at isDir
        cases isDir
      rw [if_pos isDir] at followed
      rw [if_pos (tree.isDirAt found (isGoal ▸ prefix_goal down) other)]
      split_ifs at followed ⊢ with blank long nothing gone
      · exact ih others followed
      · have below : here ++ [c] <+: place := by
          rw [eq_goal_of_follow followed]
          exact prefix_goal others
        by_cases same : here ++ [c] = place
        · rw [same, found] at nothing
          cases nothing
        · rw [isDirAt_iff.mp (tree.isDirAt found below same)] at nothing
          cases nothing
      · exact ih others followed
    · rw [if_neg isDir] at followed
      cases followed

/-- The same for components that lead up before they lead down. A component that turns back behind a
name would ask for a directory that is not above the place. -/
theorem IsTree.follow_direct {entry : Entry} (tree : d.IsTree) (direct : Path.Direct components)
    (low : here <+: d.cwd) (found : d.entry? place = some entry) (noDir : e.isDirAt place = false)
    (followed : e.follow here components = .ok place) : d.follow here components = .ok place := by
  induction components generalizing here with
  | nil => exact followed
  | cons c rest ih =>
    obtain ⟨across, direct'⟩ := List.pairwise_cons.mp direct
    by_cases climbs : c = "" ∨ c = "." ∨ c = ".."
    · rw [follow_cons] at followed ⊢
      rw [if_pos (tree.above_cwd low)]
      by_cases isDir : e.isDirAt here = true
      · rw [if_pos isDir] at followed
        by_cases blank : c = "" ∨ c = "."
        · rw [if_pos blank] at followed ⊢
          exact ih direct' low followed
        · have up : c = ".." := by tauto
          rw [if_neg blank, if_pos up] at followed ⊢
          exact ih direct' ((List.dropLast_prefix here).trans low) followed
      · rw [if_neg isDir] at followed
        cases followed
    · have down : ∀ other ∈ c :: rest, other ≠ ".." := by
        refine List.forall_mem_cons.mpr ⟨fun up => climbs (.inr (.inr up)), fun other member up => ?_⟩
        exact climbs (across other member up)
      exact tree.follow_down down found noDir followed

end Follow

/-- What a path leads to, it still leads to. -/
theorem Grown.place_eq (grown : Grown out d e)
    (found : d.place path = .ok place) : e.place path = .ok place := by
  refine place_mono grown.cwd (fun q isDir => isDirAt_iff.mpr (grown.dirs q (isDirAt_iff.mp isDir)))
    (fun q nothing => ?_) found
  rcases d.entry_cases q with nothing' | isDir | ⟨old, isOld⟩
  · exact nothing'
  · rw [grown.dirs q isDir] at nothing
    cases nothing
  · obtain ⟨new, isNew, -⟩ := grown.files q old isOld
    rw [file?_eq_some, nothing] at isNew
    cases isNew

/-- **Files that are not below the output directory** are found as before. -/
theorem Grown.sameAt (grown : Grown out d e) (tree : d.IsTree)
    (direct : Path.Direct (Path.written path)) (away : ¬IsUnitPlace out (d.spot path)) :
    d.SameAt e path := by
  intro place file
  constructor
  · rintro ⟨found, isFile⟩
    have isSpot : place = d.spot path := by
      rw [spot_of_place found, spot, spot, start, start, grown.cwd]
    have isFile' : d.file? place = some file := by
      rcases d.entry_cases place with nothing | isDir | ⟨other, isOther⟩
      · exact absurd (grown.newFiles place file nothing isFile) (isSpot ▸ away)
      · rw [file?_eq_some, grown.dirs place isDir] at isFile
        cases isFile
      · obtain ⟨same, isSame, kept⟩ := grown.files place other isOther
        rw [isFile] at isSame
        cases isSame
        rw [kept (isSpot ▸ away), isOther]
    refine ⟨?_, isFile'⟩
    rw [Disk.place] at found ⊢
    split at found
    · cases found
    · rw [grown.cwd] at found
      have noDir : e.isDirAt place = false := by
        rw [isDirAt, file?_eq_some.mp isFile]
        rfl
      refine tree.follow_direct direct ?_ (file?_eq_some.mp isFile') noDir found
      split
      · exact List.nil_prefix
      · exact List.prefix_refl _
  · rintro ⟨found, isFile⟩
    obtain ⟨other, isFile', same⟩ := grown.files place file isFile
    have away' : ¬IsUnitPlace out place := (spot_of_place found).symm ▸ away
    exact ⟨grown.place_eq found, same away' ▸ isFile'⟩

/-! ### Writing -/

open Forwarder.Path (IsEntryName Normal goal ofComponents)

section Write

variable {absolute : Bool} {front : List String} {name : String}

theorem ground_eq (grown : Grown out d e) (absolute : Bool) : e.ground absolute = d.ground absolute := by
  rw [ground, ground, grown.cwd]

theorem Grown.isGrounded (grown : Grown out d e) (grounded : d.IsGrounded) : e.IsGrounded :=
  fun above isAbove =>
    isDirAt_iff.mpr (grown.dirs above (isDirAt_iff.mp (grounded above (grown.cwd ▸ isAbove))))

/-- It does not count when the changes began. -/
theorem Grown.since (grown : Grown out d e) (now : Nat) : Grown out (d.atClock now) e :=
  ⟨grown.cwd, grown.dirs, grown.files, grown.newDirs, grown.newFiles⟩

theorem grown_atClock (out : Place) (d : Disk) (now : Nat) : Grown out d (d.atClock now) :=
  ⟨rfl, fun _ => id, fun _ file found => ⟨file, found, fun _ => rfl⟩,
    (Grown.refl out d).newDirs, (Grown.refl out d).newFiles⟩

/-- Where directories of the output are made, files stay what they were. -/
theorem Grown.isSome_file? (grown : Grown out d e) (isFolder : IsFolderPlace out place) :
    (d.file? place).isSome = (e.file? place).isSome := by
  rcases d.entry_cases place with nothing | isDir | ⟨file, isFile⟩
  · have noFile : d.file? place = none := by rw [file?, nothing]
    rw [noFile]
    cases found : e.file? place with
    | none => rfl
    | some file => exact absurd isFolder (grown.newFiles place file nothing found).not_folder
  · rw [file?, isDir, file?, grown.dirs place isDir]
  · obtain ⟨other, isFile', -⟩ := grown.files place file isFile
    rw [isFile, isFile']
    rfl

/-- Where files of the output are written, directories stay what they were. -/
theorem Grown.isDirAt_eq (grown : Grown out d e) (isUnit : IsUnitPlace out place) :
    d.isDirAt place = e.isDirAt place := by
  rcases d.entry_cases place with nothing | isDir | ⟨file, isFile⟩
  · have noDir : d.isDirAt place = false := by rw [isDirAt, nothing]; rfl
    rw [noDir, eq_comm, Bool.eq_false_iff]
    exact fun found => isUnit.not_folder (grown.newDirs place nothing (isDirAt_iff.mp found))
  · rw [isDirAt, isDir, isDirAt, grown.dirs place isDir]
  · obtain ⟨other, isFile', -⟩ := grown.files place file isFile
    rw [isDirAt, file?_eq_some.mp isFile, isDirAt, file?_eq_some.mp isFile']
    rfl

/-- A path of the output: below the output directory through directories without points in their names,
to a file with one. -/
structure LeadsBelow (d : Disk) (out : Place) (absolute : Bool) (front : List String) (name : String) :
    Prop where
  normal : Normal absolute front
  isName : IsEntryName name
  point : '.' ∈ name.toList
  below : ∃ folders, goal (d.ground absolute) front = out ++ folders ∧
    ∀ c ∈ folders, '.' ∉ c.toList

namespace LeadsBelow

theorem of_cwd (leads : LeadsBelow d out absolute front name) (same : e.cwd = d.cwd) :
    LeadsBelow e out absolute front name := by
  have ground : e.ground absolute = d.ground absolute := by rw [Disk.ground, Disk.ground, same]
  exact ⟨leads.normal, leads.isName, leads.point, ground ▸ leads.below⟩

theorem isUnit (leads : LeadsBelow d out absolute front name) :
    IsUnitPlace out (goal (d.ground absolute) front ++ [name]) := by
  obtain ⟨folders, isGoal, -⟩ := leads.below
  exact ⟨folders, name, by rw [isGoal], leads.point⟩

theorem isFolder (leads : LeadsBelow d out absolute front name) {above : Place}
    (isAbove : above <+: goal (d.ground absolute) front) : IsFolderPlace out above := by
  obtain ⟨folders, isGoal, plain⟩ := leads.below
  exact isFolderPlace_of_prefix plain (isGoal ▸ isAbove)

end LeadsBelow

/-- **What keeps a file of the output from being written** is the same as before. Only the temporary
name it is written under is a different one. -/
theorem Grown.writeFailure?_eq (grown : Grown out d e) (grounded : d.IsGrounded)
    (leads : LeadsBelow d out absolute front name) (sameTick : e.clock = d.clock) :
    d.writeFailure? absolute front name = e.writeFailure? absolute front name := by
  have obstacles : d.firstObstacle? absolute [] (d.ground absolute) front =
      e.firstObstacle? absolute [] (d.ground absolute) front := by
    refine firstObstacle?_congr _ _ _ fun place member => ?_
    rcases mem_stations leads.normal member with isAbove | isAbove
    · exact grown.isSome_file? (leads.isFolder isAbove)
    · have isDir := isDirAt_iff.mp (grounded place (isAbove.trans (ground_above d absolute)))
      rw [file?, isDir, file?, grown.dirs place isDir]
  have sameDir := grown.isDirAt_eq leads.isUnit
  have sameTemporary (dir : String) : e.temporary dir = d.temporary dir := by
    rw [temporary, temporary, sameTick]
  simp only [writeFailure?, ground_eq grown, obstacles, sameDir, uncreated, unrenamed, sameTemporary]

/-- **Writing a file of the output** goes on in the same way. -/
theorem Grown.write (grown : Grown out d e) (grounded : e.IsGrounded)
    (leads : LeadsBelow d out absolute front name) (text : String) :
    Grown out d (e.write (ofComponents absolute (front ++ [name])) text).2 := by
  have written := write_eq leads.normal leads.isName grounded text
  rw [ground_eq grown] at written
  split at written
  · exact grown.trans (of_dug written.2 fun above => leads.isFolder)
  · refine grown.trans (of_written written.2 leads.isUnit fun above isAbove other => ?_)
    exact leads.isFolder ((List.prefix_concat_iff.mp isAbove).resolve_left other)

end Write

end Disk

end Forwarder
