/-
**Writing a file again.** What a written file leaves behind is a file that its path leads to, and
directories on the way to it. When it is written again, in the same way and to the same end, nothing but
its content can change. When it could not be written, it cannot be written again, and nothing changes.

* `Disk.passed` — the directories on the way to a file, up to the first obstacle.
* `Disk.makeDirs_closed`, **`Disk.write_closed`** — making directories and writing a file, in closed form.
* `Disk.Settled` — a file could be written before, or could not; **`settled_write`** — after it was tried.
* **`Settled.write`** — writing it again.
* `fileAt_write`, `file?_write` — the file that was written, and the files at other places.
-/

import Forwarder.Proofs.Disk.Growth

namespace Forwarder.Disk

open Forwarder.Path (advance goal IsEntryName Normal ofComponents)

variable {d e f : Disk} {here place : Place} {absolute : Bool} {front back : List String}
  {name : String} {text : String}

/-! ### Directories -/

/-- The directories along the components, up to the first obstacle. -/
def passed (d : Disk) (absolute : Bool) (front : List String) (here : Place) :
    List String → List Place
  | [] => []
  | component :: rest =>
    match d.obstacle? absolute front here component with
    | some _ => []
    | none =>
      advance here component :: d.passed absolute (front ++ [component]) (advance here component) rest

/-- Directories at all places where nothing was. -/
def withFolders (d : Disk) (places : List Place) : Disk :=
  places.foldl withFolder d

theorem passed_congr {components : List String} (absolute : Bool) (front : List String) (here : Place)
    (same : ∀ place ∈ stations here components, (d.file? place).isSome = (e.file? place).isSome) :
    d.passed absolute front here components = e.passed absolute front here components := by
  induction components generalizing front here with
  | nil => rfl
  | cons c rest ih =>
    obtain ⟨first, others⟩ := List.forall_mem_cons.mp same
    simp only [passed, obstacle?, first, ih _ _ others]

/-- Without an obstacle all directories on the way are passed. -/
theorem passed_eq_stations {components : List String} {front : List String} {here : Place}
    (free : d.firstObstacle? absolute front here components = none) :
    d.passed absolute front here components = stations here components := by
  induction components generalizing front here with
  | nil => rfl
  | cons c rest ih =>
    rw [firstObstacle?] at free
    rw [passed, stations]
    cases found : d.obstacle? absolute front here c with
    | some obstacle =>
      rw [found] at free
      cases free
    | none =>
      rw [found] at free
      rw [ih free]

theorem passed_subset {components : List String} (front : List String) (here : Place) :
    d.passed absolute front here components ⊆ stations here components := by
  induction components generalizing front here with
  | nil => exact List.Subset.refl _
  | cons c rest ih =>
    rw [passed, stations]
    cases d.obstacle? absolute front here c with
    | some obstacle => exact List.nil_subset _
    | none => exact List.cons_subset_cons _ (ih _ _)

/-- There is no file where a directory is passed. -/
theorem noFile_of_passed {components : List String} {front : List String} {here place : Place}
    (member : place ∈ d.passed absolute front here components) : (d.file? place).isSome = false := by
  induction components generalizing front here with
  | nil => cases member
  | cons c rest ih =>
    rw [passed] at member
    cases found : d.obstacle? absolute front here c with
    | some obstacle =>
      rw [found] at member
      cases member
    | none =>
      rw [found] at member
      rcases List.mem_cons.mp member with rfl | member
      · exact (obstacle?_eq_none.mp found).2
      · exact ih member

theorem withFolder_eq_self (isThere : (d.entry? place).isSome = true) : d.withFolder place = d := by
  rw [withFolder, if_neg]
  cases found : d.entry? place with
  | none =>
    rw [found] at isThere
    cases isThere
  | some entry => exact Bool.false_ne_true

/-- Directories that are there are not made. -/
theorem withFolders_eq_self {places : List Place} (dirs : ∀ place ∈ places, d.isDirAt place = true) :
    d.withFolders places = d := by
  induction places with
  | nil => rfl
  | cons place places ih =>
    obtain ⟨first, others⟩ := List.forall_mem_cons.mp dirs
    have same : d.withFolder place = d := withFolder_eq_self (by rw [isDirAt_iff.mp first]; rfl)
    rw [withFolders, List.foldl_cons, same]
    exact ih others

theorem dug_withFolders (d : Disk) (places : List Place) : Dug (· ∈ places) d (d.withFolders places) := by
  induction places generalizing d with
  | nil => exact .refl _ d
  | cons place places ih =>
    rw [withFolders, List.foldl_cons]
    refine ((dug_withFolder d place).mono fun other same _ => ?_).trans
      ((ih _).mono fun other member _ => List.mem_cons_of_mem _ member)
    exact same ▸ List.mem_cons_self

/-- All of the directories are there then, if there are no files in their places. -/
theorem isDirAt_withFolders {places : List Place}
    (noFile : ∀ place ∈ places, (d.file? place).isSome = false) :
    ∀ place ∈ places, (d.withFolders places).isDirAt place = true := by
  induction places generalizing d with
  | nil => exact List.forall_mem_nil _
  | cons place places ih =>
    obtain ⟨first, others⟩ := List.forall_mem_cons.mp noFile
    have dug := dug_withFolder d place
    rw [withFolders, List.foldl_cons]
    refine List.forall_mem_cons.mpr ⟨?_, ih fun other member => ?_⟩
    · exact (dug_withFolders _ places).isDirAt (isDirAt_withFolder first)
    · rw [dug.file?]
      exact others other member

/-- **Making directories**, in closed form. -/
theorem makeEach_closed (normal : Normal absolute (front ++ back)) (grounded : d.IsGrounded)
    (stands : d.place (ofComponents absolute front) = .ok here) (isDir : d.isDirAt here = true)
    (low : (∀ c ∈ front, c = "..") → here <+: d.cwd) :
    d.makeEach (rungs absolute front back) =
      (d.firstObstacle? absolute front here back, d.withFolders (d.passed absolute front here back)) := by
  induction back generalizing front here d with
  | nil => rfl
  | cons c rest ih =>
    have split : front ++ c :: rest = (front ++ [c]) ++ rest := List.append_cons ..
    rw [split] at normal
    obtain ⟨step, there⟩ := makeEach_rung normal.of_append.1 grounded stands isDir low
      (rungs absolute (front ++ [c]) rest)
    rw [rungs, step, firstObstacle?, passed]
    cases obstacle : d.obstacle? absolute front here c with
    | some fault => rfl
    | none =>
      obtain ⟨stands', isDir'⟩ := there obstacle
      have dug := dug_withFolder d (advance here c)
      have low' : (∀ other ∈ front ++ [c], other = "..") →
          advance here c <+: (d.withFolder (advance here c)).cwd := fun ups => by
        obtain ⟨before, last⟩ := List.forall_mem_append.mp ups
        have up : c = ".." := last c (List.mem_singleton_self c)
        rw [dug.cwd, up]
        exact (List.dropLast_prefix here).trans (low before)
      have sameFiles : ∀ place ∈ stations (advance here c) rest,
          ((d.withFolder (advance here c)).file? place).isSome = (d.file? place).isSome :=
        fun place _ => by rw [dug.file?]
      dsimp only
      rw [ih normal (dug.isGrounded grounded) stands' isDir' low', firstObstacle?_congr _ _ _ sameFiles,
        passed_congr _ _ _ sameFiles]
      rfl

/-- All directories above the goal, in closed form. -/
theorem makeDirs_closed {components : List String} (normal : Normal absolute components)
    (grounded : d.IsGrounded) :
    d.makeDirs (ofComponents absolute components) =
      (d.firstObstacle? absolute [] (d.ground absolute) components,
        d.withFolders (d.passed absolute [] (d.ground absolute) components)) := by
  have isDir : d.isDirAt (d.ground absolute) = true := by
    cases absolute
    · exact grounded.cwd
    · rfl
  have stands : d.place (ofComponents absolute []) = .ok (d.ground absolute) := by
    rw [place_ofComponents .nil grounded.cwd]
    cases absolute <;> rfl
  rw [makeDirs, ancestors_eq_rungs normal]
  exact makeEach_closed normal grounded stands isDir fun _ => ground_above d absolute

/-! ### Files -/

/-- The directories that are on the way to a file, as far as they can be made. -/
def foldersOf (d : Disk) (absolute : Bool) (front : List String) (name : String) : List Place :=
  if climbs (ofComponents absolute (front ++ [name])) then []
  else d.passed absolute [] (d.ground absolute) front

/-- The directories on the way to a file are made. -/
def prepared (d : Disk) (absolute : Bool) (front : List String) (name : String) : Disk :=
  d.withFolders (d.foldersOf absolute front name)

/-- What is left of a file that is written. -/
def written (d : Disk) (absolute : Bool) (front : List String) (name text : String) : Disk :=
  (d.prepared absolute front name).withText (goal (d.ground absolute) front ++ [name]) text

/-- **Writing a file**, in closed form. -/
theorem write_closed (normal : Normal absolute front) (isName : IsEntryName name)
    (grounded : d.IsGrounded) (text : String) :
    d.write (ofComponents absolute (front ++ [name])) text =
      match d.writeFailure? absolute front name with
      | some failure => (.error failure, d.prepared absolute front name)
      | none => (.ok (), d.written absolute front name text) := by
  have both := normal.concat isName
  rw [writeFailure?, write, written, checkedPath_ofComponents both, prepared, foldersOf]
  by_cases climbs_ : climbs (ofComponents absolute (front ++ [name])) = true
  · simp only [climbs_, if_true]
    rfl
  have along := makeDirs_along normal grounded
  simp only [climbs_, if_false, Bool.false_eq_true, Path.dir_ofComponents both]
  rw [makeDirs_closed normal grounded] at along ⊢
  obtain ⟨-, dug, reached⟩ := along
  cases free : d.firstObstacle? absolute [] (d.ground absolute) front with
  | some obstacle => rfl
  | none =>
    obtain ⟨stands, isDir⟩ := reached free
    generalize d.withFolders (d.passed absolute [] (d.ground absolute) front) = made at *
    have sameTemporary : made.temporary (ofComponents absolute front) =
        d.temporary (ofComponents absolute front) := by rw [temporary, temporary, dug.clock]
    have sameDir : made.isDirAt (goal (d.ground absolute) front ++ [name]) =
        d.isDirAt (goal (d.ground absolute) front ++ [name]) := by rw [isDirAt, isDirAt, dug.entry?_name]
    dsimp only
    rw [replace, sameTemporary, install_eq normal isName (dug.isGrounded grounded).cwd stands isDir, sameDir]
    cases refusedPath? (d.temporary (ofComponents absolute front)) with
    | some refusal => rfl
    | none =>
      cases blocked? (ofComponents absolute (front ++ [name])) name with
      | some refusal => rfl
      | none => cases d.isDirAt (goal (d.ground absolute) front ++ [name]) <;> rfl

/-! ### What is left of a file that is written -/

theorem dug_prepared (d : Disk) (absolute : Bool) (front : List String) (name : String) :
    Dug (fun _ => True) d (d.prepared absolute front name) :=
  (dug_withFolders d _).mono fun _ _ _ => trivial

/-- The directories on the way are there. -/
theorem isDirAt_prepared : ∀ place ∈ d.foldersOf absolute front name,
    (d.prepared absolute front name).isDirAt place = true := by
  refine isDirAt_withFolders fun place member => ?_
  rw [foldersOf] at member
  split at member
  · cases member
  · exact noFile_of_passed member

/-- A text is seen at its own place only. -/
theorem entry?_withText (d : Disk) (place other : Place) (text : String) (some_ : place ≠ []) :
    Disk.entry? (d.withText place text) other =
      if other = place then some (.file ⟨.text text, .tick d.clock⟩) else d.entry? other :=
  entry?_put d place other _ some_

theorem isDirAt_withText (noDir : d.isDirAt place = false) {other : Place}
    (isDir : d.isDirAt other = true) : (d.withText place text).isDirAt other = true := by
  have some_ : place ≠ [] := by
    rintro rfl
    cases noDir
  have away : other ≠ place := fun same => by
    rw [same, noDir] at isDir
    cases isDir
  rw [isDirAt_iff, entry?_withText d place other text some_, if_neg away, ← isDirAt_iff, isDir]

/-- Nothing in front of an obstacle has a name that is too long. -/
theorem short_of_free {components : List String} {front : List String} {here : Place}
    (free : d.firstObstacle? absolute front here components = none) :
    ∀ c ∈ components, isTooLong c = false := by
  induction components generalizing front here with
  | nil => exact List.forall_mem_nil _
  | cons c rest ih =>
    rw [firstObstacle?] at free
    cases found : d.obstacle? absolute front here c with
    | some obstacle =>
      rw [found] at free
      cases free
    | none =>
      rw [found] at free
      exact List.forall_mem_cons.mpr ⟨(blocked?_eq_none.mp (obstacle?_eq_none.mp found).1).2, ih free⟩

/-- Components can be followed through directories that are there. -/
theorem follow_stations {components : List String} {here : Place} (isDir : d.isDirAt here = true)
    (dirs : ∀ place ∈ stations here components, d.isDirAt place = true)
    (short : ∀ c ∈ components, isTooLong c = false) :
    d.follow here components = .ok (goal here components) := by
  induction components generalizing here with
  | nil => rfl
  | cons c rest ih =>
    obtain ⟨first, others⟩ := List.forall_mem_cons.mp dirs
    obtain ⟨isShort, rest_⟩ := List.forall_mem_cons.mp short
    have further := ih first others rest_
    rw [follow_cons, if_pos isDir, goal, List.foldl_cons, ← goal]
    rw [advance] at first further ⊢
    split_ifs at first further ⊢ with blank up long nothing
    · exact further
    · exact further
    · rw [isShort] at long
      cases long
    · rw [isDirAt_iff.mp first] at nothing
      cases nothing
    · exact further

theorem goal_mem_stations (here : Place) (components : List String) :
    goal here components ∈ here :: stations here components := by
  induction components generalizing here with
  | nil => exact List.mem_cons_self
  | cons c rest ih => exact List.mem_cons_of_mem _ (ih (advance here c))

/-- A path that is allowed leads to what is at its place. -/
theorem place_of_follow (normal : Normal absolute front) (isName : IsEntryName name)
    (cwd : d.isDirAt d.cwd = true) (allowed : blocked? (ofComponents absolute (front ++ [name])) name = none)
    (followed : d.follow (d.ground absolute) front = .ok here) (isDir : d.isDirAt here = true)
    (some_ : (d.entry? (here ++ [name])).isNone = false) :
    d.place (ofComponents absolute (front ++ [name])) = .ok (here ++ [name]) := by
  obtain ⟨allowed', short⟩ := blocked?_eq_none.mp allowed
  rw [place_ofComponents (normal.concat isName) cwd, allowed']
  dsimp only
  rw [follow_append, ← ground, followed]
  dsimp only
  rw [follow_cons, if_pos isDir, if_neg (not_or.mpr ⟨isName.some_, isName.here⟩), if_neg isName.parent,
    if_neg (by rw [short]; exact Bool.false_ne_true), if_neg (by rw [some_]; exact Bool.false_ne_true)]
  rfl

/-- Where a file is written no directory is made. -/
theorem noDir_prepared (normal : Normal absolute front) (grounded : d.IsGrounded)
    (noDir : d.isDirAt (goal (d.ground absolute) front ++ [name]) = false) :
    (d.prepared absolute front name).isDirAt (goal (d.ground absolute) front ++ [name]) = false := by
  rcases (dug_withFolders d (d.foldersOf absolute front name)).entry
    (goal (d.ground absolute) front ++ [name]) with same | ⟨member, nothing, -⟩
  · rwa [isDirAt, prepared, same, ← isDirAt]
  · have isStation : goal (d.ground absolute) front ++ [name] ∈ stations (d.ground absolute) front := by
      rw [foldersOf] at member
      split at member
      · cases member
      · exact passed_subset _ _ member
    rcases mem_stations normal isStation with isAbove | isAbove
    · have shorter := isAbove.length_le
      rw [List.length_append, List.length_singleton] at shorter
      omega
    · have isDir := grounded _ (isAbove.trans (ground_above d absolute))
      rw [isDirAt_iff.mp isDir] at nothing
      cases nothing

namespace Fits

variable (fits : d.Fits absolute front name)

include fits

theorem folders_written (normal : Normal absolute front) (grounded : d.IsGrounded) (text : String) :
    ∀ place ∈ d.ground absolute :: stations (d.ground absolute) front,
      (d.written absolute front name text).isDirAt place = true := by
  have noDir := noDir_prepared normal grounded fits.noDir
  have ground_ : d.isDirAt (d.ground absolute) = true := grounded _ (ground_above d absolute)
  refine List.forall_mem_cons.mpr ⟨?_, fun place member => isDirAt_withText noDir (isDirAt_prepared place ?_)⟩
  · exact isDirAt_withText noDir ((dug_prepared d absolute front name).isDirAt ground_)
  · rwa [foldersOf, fits.level, if_neg Bool.false_ne_true, passed_eq_stations fits.free]

/-- Below directories that were made the file is there. -/
theorem writtenAt (normal : Normal absolute front) (grounded : d.IsGrounded) (text : String) :
    WrittenAt d (goal (d.ground absolute) front ++ [name]) text (d.written absolute front name text) := by
  obtain ⟨-, dug, reached⟩ := makeDirs_along normal grounded
  have folders : d.withFolders (d.passed absolute [] (d.ground absolute) front) =
      d.prepared absolute front name := by
    rw [prepared, foldersOf, fits.level, if_neg Bool.false_ne_true]
  rw [makeDirs_closed normal grounded, folders] at dug reached
  exact dug.writtenAt (reached fits.free).2 fits.noDir text

/-- **A file that is written** is found under its path. -/
theorem fileAt_written (normal : Normal absolute front) (isName : IsEntryName name) (grounded : d.IsGrounded)
    (text : String) :
    ∃ file, (d.written absolute front name text).FileAt
      (ofComponents absolute (front ++ [name])) (goal (d.ground absolute) front ++ [name]) file ∧
        file.content = .text text := by
  have dug := dug_prepared d absolute front name
  have folders := fits.folders_written normal grounded text
  have entry := entry?_withText (d.prepared absolute front name)
    (goal (d.ground absolute) front ++ [name]) (goal (d.ground absolute) front ++ [name]) text
    (List.append_ne_nil_of_right_ne_nil _ (List.cons_ne_nil _ _))
  rw [if_pos rfl, ← written] at entry
  have sameGround : (d.written absolute front name text).ground absolute = d.ground absolute := by
    rw [ground, ground]
    exact congrArg (fun cwd => if absolute then [] else cwd) dug.cwd
  refine ⟨_, ⟨?_, file?_eq_some.mpr entry⟩, rfl⟩
  have followed := follow_stations (folders _ List.mem_cons_self)
    (fun place member => folders place (List.mem_cons_of_mem _ member)) (short_of_free fits.free)
  refine place_of_follow normal isName ?_ fits.allowed (sameGround ▸ followed)
    (folders _ (goal_mem_stations _ _)) (by rw [entry]; rfl)
  exact isDirAt_withText (noDir_prepared normal grounded fits.noDir)
    (dug.isDirAt (dug.cwd.symm ▸ grounded.cwd))

end Fits

theorem fileAt_write (normal : Normal absolute front) (isName : IsEntryName name)
    (grounded : d.IsGrounded) (done : (d.write (ofComponents absolute (front ++ [name])) text).1 = .ok ()) :
    ∃ file, (d.write (ofComponents absolute (front ++ [name])) text).2.FileAt
      (ofComponents absolute (front ++ [name])) (goal (d.ground absolute) front ++ [name]) file ∧
        file.content = .text text := by
  have closed := write_closed normal isName grounded text
  cases writable : d.writeFailure? absolute front name with
  | some failure =>
    rw [closed, writable] at done
    cases done
  | none =>
    rw [closed, writable]
    exact (writable_iff.mp writable).1.fileAt_written normal isName grounded text

/-- Files at other places are as they were, and all are if the file cannot be written. -/
theorem file?_write (normal : Normal absolute front) (isName : IsEntryName name)
    (grounded : d.IsGrounded) {other : Place}
    (away : (d.write (ofComponents absolute (front ++ [name])) text).1 = .ok () →
      other ≠ goal (d.ground absolute) front ++ [name]) :
    (d.write (ofComponents absolute (front ++ [name])) text).2.file? other = d.file? other := by
  rw [write_closed normal isName grounded] at away ⊢
  cases writable : d.writeFailure? absolute front name with
  | some failure => exact (dug_prepared d absolute front name).file? other
  | none =>
    rw [writable] at away
    exact ((writable_iff.mp writable).1.writtenAt normal grounded text).file? (away rfl)

/-! ### Writing again -/

/-- The file was written, or it could not be: the directories on the way to it are there, as far as they
can be made, and so is the file if it can be written. -/
structure Settled (d : Disk) (absolute : Bool) (front : List String) (name : String) : Prop where
  folders : ∀ place ∈ d.foldersOf absolute front name, d.isDirAt place = true
  file : d.writeFailure? absolute front name = none →
    (d.file? (goal (d.ground absolute) front ++ [name])).isSome = true

section Settled

variable {out : Place}

/-- The directories on the way to a file of the output are the same as before. -/
theorem Grown.foldersOf_eq (grown : Grown out d e) (grounded : d.IsGrounded)
    (leads : LeadsBelow d out absolute front name) :
    d.foldersOf absolute front name = e.foldersOf absolute front name := by
  rw [foldersOf, foldersOf, ground_eq grown]
  split
  · rfl
  · refine passed_congr _ _ _ fun place member => ?_
    rcases mem_stations leads.normal member with isAbove | isAbove
    · exact grown.isSome_file? (leads.isFolder isAbove)
    · have isDir := isDirAt_iff.mp (grounded place (isAbove.trans (ground_above d absolute)))
      rw [file?, isDir, file?, grown.dirs place isDir]

/-- Whether a file of the output can be written is the same as before. -/
theorem Grown.writable_eq (grown : Grown out d e) (grounded : d.IsGrounded)
    (leads : LeadsBelow d out absolute front name) :
    d.writeFailure? absolute front name = none ↔ e.writeFailure? absolute front name = none := by
  have same := (grown.since e.clock).writeFailure?_eq grounded (leads.of_cwd rfl) rfl
  have obstacles : (d.atClock e.clock).firstObstacle? absolute [] (d.ground absolute) front =
      d.firstObstacle? absolute [] (d.ground absolute) front := firstObstacle?_congr _ _ _ fun _ _ => rfl
  rw [← same, writable_iff, writable_iff, refusedPath?_temporary (d.atClock e.clock) d]
  refine and_congr_left fun _ => ⟨fun fits => ?_, fun fits => ?_⟩
  · exact ⟨fits.level, obstacles.trans fits.free, fits.allowed, fits.noDir⟩
  · exact ⟨fits.level, obstacles.symm.trans fits.free, fits.allowed, fits.noDir⟩

theorem Settled.mono (settled : d.Settled absolute front name) (grown : Grown out d e)
    (grounded : d.IsGrounded) (leads : LeadsBelow d out absolute front name) :
    e.Settled absolute front name where
  folders place member := by
    rw [← grown.foldersOf_eq grounded leads] at member
    exact isDirAt_iff.mpr (grown.dirs place (isDirAt_iff.mp (settled.folders place member)))
  file writable := by
    obtain ⟨file, isFile⟩ := Option.isSome_iff_exists.mp
      (settled.file ((grown.writable_eq grounded leads).mpr writable))
    obtain ⟨other, isFile', -⟩ := grown.files _ file isFile
    rw [ground_eq grown, isFile']
    rfl

/-- **A file that was tried to be written** is settled. -/
theorem settled_write (grounded : d.IsGrounded) (leads : LeadsBelow d out absolute front name)
    (text : String) : (d.write (ofComponents absolute (front ++ [name])) text).2.Settled absolute front name := by
  have grown := (Grown.refl out d).write grounded leads text
  refine ⟨fun place member => ?_, fun writable => ?_⟩
  · rw [← grown.foldersOf_eq grounded leads] at member
    have made := isDirAt_prepared place member
    rw [write_closed leads.normal leads.isName grounded]
    cases writable : d.writeFailure? absolute front name with
    | some failure => exact made
    | none =>
      exact isDirAt_withText (noDir_prepared leads.normal grounded (writable_iff.mp writable).1.noDir) made
  · have done : (d.write (ofComponents absolute (front ++ [name])) text).1 = .ok () := by
      rw [write_closed leads.normal leads.isName grounded,
        (grown.writable_eq grounded leads).mpr writable]
    obtain ⟨file, isAt, -⟩ := fileAt_write leads.normal leads.isName grounded done
    rw [ground_eq grown, isAt.2]
    rfl

/-- **Writing a settled file** changes its text, or nothing at all. -/
theorem Settled.write (settled : d.Settled absolute front name) (normal : Normal absolute front)
    (isName : IsEntryName name) (grounded : d.IsGrounded) (text : String) :
    d.write (ofComponents absolute (front ++ [name])) text =
      match d.writeFailure? absolute front name with
      | some failure => (.error failure, d)
      | none => (.ok (), d.withText (goal (d.ground absolute) front ++ [name]) text) := by
  rw [write_closed normal isName grounded, written, prepared, withFolders_eq_self settled.folders]

end Settled

end Forwarder.Disk
