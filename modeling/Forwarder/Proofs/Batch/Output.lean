/-
**Where units are written.** The package of a unit becomes folders below the output root, whose names have
no points, and its class becomes a file with one. So no unit stands in the way of another, and what becomes
of a unit does not depend on those written before it.

* `Output.place_cases` — a unit has a path that leads below the output root, or none.
* `Output.grown_write` — a written unit changes the disk below the output root only.
* **`Output.write_eq`** — a unit is written, or fails to be, as it would be at the beginning.
* `AlikeResult`, `Output.write_atClock` — the time shows in the name of a temporary file only.
-/

import Forwarder.Batch.Output
import Forwarder.Proofs.Disk.Growth

namespace Forwarder

open Forwarder.Path (IsEntryName ofComponents)
open Disk (Grown LeadsBelow)

/-! ### Paths of units -/

namespace GeneratedUnit

variable {u : GeneratedUnit}

/-- The folders of a unit: the parts of its package that are not empty. -/
def folders (u : GeneratedUnit) : List String :=
  (Path.written (Text.join "/" (Text.split '.' u.packageName))).filter (· != "")

/-- The name of the file of a unit. -/
def fileName (u : GeneratedUnit) : String :=
  u.className ++ ".java"

theorem isEntryName_fileName (free : '/' ∉ u.className.toList) : IsEntryName u.fileName := by
  have long : 5 ≤ u.fileName.length := by
    rw [fileName, String.length_append]
    exact Nat.le_add_left _ _
  have other {name : String} (short : name.length < 5) : u.fileName ≠ name := by
    rintro rfl
    omega
  refine ⟨other (by decide), other (by decide), other (by decide), ?_⟩
  rw [fileName, String.toList_append, List.mem_append, not_or]
  exact ⟨free, by decide⟩

theorem point_fileName (u : GeneratedUnit) : '.' ∈ u.fileName.toList := by
  rw [fileName, String.toList_append]
  exact List.mem_append_right _ (by decide)

/-- What stands between the slashes of a package has no points. -/
theorem noPoint_of_written {part : String}
    (member : part ∈ Path.written (Text.join "/" (Text.split '.' u.packageName))) :
    '.' ∉ part.toList := by
  obtain ⟨piece, isPiece, rfl⟩ := List.mem_map.mp member
  rw [String.toList_ofList]
  exact fun point => Text.not_mem_join_split (by decide : '.' ≠ '/') u.packageName
    ((Text.sublist_of_mem_pieces isPiece).mem point)

theorem isEntryName_of_written {part : String}
    (member : part ∈ Path.written (Text.join "/" (Text.split '.' u.packageName)))
    (some_ : part ≠ "") : IsEntryName part := by
  have noPoint := noPoint_of_written member
  refine ⟨some_, ?_, ?_, Text.not_mem_of_mem_split member⟩
  · rintro rfl
    exact noPoint (by decide)
  · rintro rfl
    exact noPoint (by decide)

theorem isEntryName_folders : ∀ folder ∈ u.folders, IsEntryName folder := by
  intro folder member
  obtain ⟨isPart, some_⟩ := List.mem_filter.mp member
  exact isEntryName_of_written isPart (by simpa using some_)

/-- **The path of a unit** leads through its folders to its file. -/
theorem components_relativePath (free : '/' ∉ u.className.toList) :
    Path.components u.relativePath = u.folders ++ [u.fileName] := by
  have isName := isEntryName_fileName free
  have file : Path.written u.fileName = [u.fileName] := by
    have noMark := Text.pieces_free isName.free
    rw [Path.written, Text.split, noMark, List.map_singleton, String.ofList_toList]
  have isWritten : (Path.written u.relativePath).filter (· != "") = u.folders ++ [u.fileName] ∧
      ∀ c ∈ Path.written u.relativePath, c = "" ∨ IsEntryName c := by
    have kept : [u.fileName].filter (· != "") = [u.fileName] := by simp [isName.some_]
    rw [relativePath, folders]
    generalize isPackage : Text.join "/" (Text.split '.' u.packageName) = package
    split
    · next none_ =>
      rw [String.isEmpty_iff.mp none_, ← fileName, file]
      exact ⟨kept, List.forall_mem_singleton.mpr (.inr isName)⟩
    · rw [String.append_assoc, ← fileName, Path.written_append, file, List.filter_append, kept]
      refine ⟨rfl, List.forall_mem_append.mpr ⟨fun c member => ?_,
        List.forall_mem_singleton.mpr (.inr isName)⟩⟩
      exact or_iff_not_imp_left.mpr (isEntryName_of_written (isPackage ▸ member))
  rw [Path.components_of_plain isWritten.2, isWritten.1]

end GeneratedUnit

namespace Output

variable {out : Output} {u : GeneratedUnit} {d e : Disk}

/-- The components in front of the file of a unit. -/
def front (out : Output) (u : GeneratedUnit) : List String :=
  Path.components out.root ++ u.folders

/-- The path of a unit that has one. -/
def pathOf (out : Output) (u : GeneratedUnit) : String :=
  ofComponents (Path.isAbsolute out.root) (out.front u ++ [u.fileName])

/-- The place of a unit. -/
def target (out : Output) (d : Disk) (u : GeneratedUnit) : Place :=
  d.spot out.root ++ u.folders ++ [u.fileName]

theorem goal_front (out : Output) (u : GeneratedUnit) (d : Disk) :
    Path.goal (d.ground (Path.isAbsolute out.root)) (out.front u) = d.spot out.root ++ u.folders := by
  have fromRoot : Path.isAbsolute out.root = true → d.ground (Path.isAbsolute out.root) = [] :=
    fun absolute => by rw [absolute]; rfl
  rw [front, Path.goal_append, Path.goal_components fromRoot,
    Path.goal_names GeneratedUnit.isEntryName_folders]
  rfl

/-- The path of a unit leads below the output root. -/
theorem leadsBelow (out : Output) (free : '/' ∉ u.className.toList) (d : Disk) :
    LeadsBelow d (d.spot out.root) (Path.isAbsolute out.root) (out.front u) u.fileName :=
  ⟨(Path.normal_components _).append GeneratedUnit.isEntryName_folders,
    GeneratedUnit.isEntryName_fileName free, u.point_fileName, u.folders, goal_front out u d,
    fun _ member => GeneratedUnit.noPoint_of_written (List.mem_filter.mp member).1⟩

/-- **A unit has its path below the output root**, or none at all. -/
theorem place_exact (out : Output) (free : '/' ∉ u.className.toList) :
    (∃ failure, out.place u = .error failure) ∨ out.place u = .ok (out.pathOf u) := by
  rw [Output.place, within]
  have parts := GeneratedUnit.components_relativePath free
  have names : ∀ c ∈ u.folders ++ [u.fileName], IsEntryName c :=
    List.forall_mem_append.mpr ⟨GeneratedUnit.isEntryName_folders,
      List.forall_mem_singleton.mpr (GeneratedUnit.isEntryName_fileName free)⟩
  have some_ : u.folders ++ [u.fileName] ≠ [] :=
    List.append_ne_nil_of_right_ne_nil _ (List.cons_ne_nil _ _)
  have noneEmpty : ¬(u.folders ++ [u.fileName]).isEmpty = true := by simp
  rw [parts]
  by_cases noRoot : out.root.isEmpty = true
  · rw [if_pos noRoot]
    exact .inl ⟨_, rfl⟩
  rw [if_neg noRoot]
  dsimp only
  by_cases isAbsolute : Path.isAbsolute u.relativePath = true
  · rw [if_pos isAbsolute]
    exact .inl ⟨_, rfl⟩
  have isRoot : out.root ≠ "" := fun empty => noRoot (String.isEmpty_iff.mpr empty)
  have noParent : ¬(u.folders ++ [u.fileName]).head? = some ".." := fun first =>
    (names ".." (List.mem_of_mem_head? first)).parent rfl
  have spelled : ofComponents false (u.folders ++ [u.fileName]) =
      Text.join "/" (u.folders ++ [u.fileName]) := by
    rw [ofComponents, if_neg Bool.false_ne_true, if_neg noneEmpty]
  rw [if_neg isAbsolute, if_neg noneEmpty, if_neg noParent, spelled,
    Path.join_names names some_ isRoot, ← List.append_assoc]
  exact .inr rfl

/-- **A unit leads below the output root**, unless it has no path at all. -/
theorem place_cases (out : Output) (free : '/' ∉ u.className.toList) (d : Disk) :
    (∃ failure, out.place u = .error failure) ∨
      ∃ absolute front, out.place u = .ok (ofComponents absolute (front ++ [u.fileName])) ∧
        LeadsBelow d (d.spot out.root) absolute front u.fileName :=
  (place_exact out free).imp_right fun placed => ⟨_, _, placed, leadsBelow out free d⟩

/-! ### Writing -/

/-- What becomes of a unit whose path leads below the output root. -/
theorem write_of_place {place : Place} {absolute : Bool} {front : List String} {name : String}
    (wet : ¬out.dryRun = true) (placed : out.place u = .ok (ofComponents absolute (front ++ [name])))
    (leads : LeadsBelow d place absolute front name) (grounded : d.IsGrounded) :
    (out.write d u).path =
      match d.writeFailure? absolute front name with
      | none => .ok (ofComponents absolute (front ++ [name]))
      | some failure =>
        .error (.fileSystem "write" (ofComponents absolute (front ++ [name])) (some failure)) := by
  have written := Disk.write_eq leads.normal leads.isName grounded u.source
  rw [write, placed]
  dsimp only
  rw [if_neg wet]
  generalize d.write (ofComponents absolute (front ++ [name])) u.source = outcome at written ⊢
  obtain ⟨result, after⟩ := outcome
  cases answer : d.writeFailure? absolute front name with
  | none =>
    rw [answer] at written
    rw [show result = .ok () from written.1]
  | some failure =>
    rw [answer] at written
    rw [show result = .error failure from written.1]

/-- What becomes of a unit in a dry run. -/
theorem write_of_dryRun (dry : out.dryRun = true) (u : GeneratedUnit) (d : Disk) :
    (out.write d u).path = out.place u ∧ (out.write d u).disk = d := by
  rw [write]
  cases out.place u with
  | error failure => exact ⟨rfl, rfl⟩
  | ok path =>
    dsimp only
    rw [if_pos dry]
    exact ⟨rfl, rfl⟩

/-- A unit without a path is not written. -/
theorem write_of_unplaced {failure : Failure} (unplaced : out.place u = .error failure) (d : Disk) :
    out.write d u = ⟨.error failure, "", d⟩ := by
  rw [write, unplaced]

/-- What becomes of a unit with a path in a dry run. -/
theorem write_of_shown (dry : out.dryRun = true) {path : String} (placed : out.place u = .ok path)
    (d : Disk) : out.write d u = ⟨.ok path, preview path u, d⟩ := by
  simp only [write, placed, dry, if_true]

/-- A unit that is written has its path, and its source is written there. -/
theorem write_of_ok (wet : out.dryRun = false) {path : String}
    (done : (out.write d u).path = .ok path) :
    out.place u = .ok path ∧ (d.write path u.source).1 = .ok () ∧
      (out.write d u).disk = (d.write path u.source).2 := by
  rw [write] at done ⊢
  cases placed : out.place u with
  | error failure =>
    rw [placed] at done
    cases done
  | ok place =>
    simp only [placed, wet, Bool.false_eq_true, if_false] at done ⊢
    cases wrote : d.write place u.source with
    | mk result after =>
      rw [wrote] at done
      cases result with
      | error failure => cases done
      | ok =>
        cases done
        rw [wrote]
        exact ⟨rfl, rfl, rfl⟩

/-- Whether a text can be written does not depend on the text. -/
theorem result_write_congr (d : Disk) (path text other : String) :
    (d.write path text).1 = (d.write path other).1 := by
  rw [Disk.write, Disk.write]
  cases checkedPath path with
  | error failure => rfl
  | ok clean =>
    dsimp only
    cases d.makeDirs (Path.dir clean) with
    | mk obstacle made =>
      cases obstacle with
      | some fault => rfl
      | none =>
        dsimp only
        rw [Disk.replace, Disk.replace, Disk.install, Disk.install]
        cases Disk.refusedPath? (made.temporary (Path.dir clean)) with
        | some refusal => rfl
        | none => rcases made.resolve clean with _ | (_ | _) <;> cases made.target clean <;> rfl

/-- The path of a unit does not depend on its source. -/
theorem place_congr {v : GeneratedUnit} (samePackage : u.packageName = v.packageName)
    (sameClass : u.className = v.className) : out.place u = out.place v := by
  simp only [place, GeneratedUnit.relativePath, samePackage, sameClass]

/-- What becomes of a unit does not depend on its source. -/
theorem path_write_congr {v : GeneratedUnit} (samePackage : u.packageName = v.packageName)
    (sameClass : u.className = v.className) (d : Disk) : (out.write d u).path = (out.write d v).path := by
  rw [write, write, place_congr samePackage sameClass]
  cases out.place v with
  | error failure => rfl
  | ok path =>
    dsimp only
    split_ifs
    · rfl
    · have same := result_write_congr d path u.source v.source
      generalize d.write path u.source = first at same ⊢
      generalize d.write path v.source = second at same ⊢
      obtain ⟨result, _⟩ := first
      obtain ⟨result', _⟩ := second
      obtain rfl : result = result' := same
      cases result <;> rfl

/-- **Writing a unit** changes the disk below the output root only. -/
theorem grown_write (grown : Grown (d.spot out.root) d e) (grounded : d.IsGrounded)
    (free : '/' ∉ u.className.toList) : Grown (d.spot out.root) d (out.write e u).disk := by
  by_cases dry : out.dryRun = true
  · rwa [(write_of_dryRun dry u e).2]
  rcases place_cases out free d with ⟨failure, unplaced⟩ | ⟨absolute, front, placed, leads⟩
  · rwa [write, unplaced]
  · have further := grown.write (grown.isGrounded grounded) leads u.source
    rw [write, placed]
    dsimp only
    rw [if_neg dry]
    generalize e.write (ofComponents absolute (front ++ [u.fileName])) u.source = outcome at further ⊢
    obtain ⟨result, after⟩ := outcome
    cases result <;> exact further

/-- **What becomes of a unit** is what would become of it at the beginning. -/
theorem write_eq (grown : Grown (d.spot out.root) d e) (grounded : d.IsGrounded)
    (free : '/' ∉ u.className.toList) :
    (out.write e u).path = (out.write (d.atClock e.clock) u).path := by
  by_cases dry : out.dryRun = true
  · rw [(write_of_dryRun dry u e).1, (write_of_dryRun dry u (d.atClock e.clock)).1]
  rcases place_cases out free d with ⟨failure, unplaced⟩ | ⟨absolute, front, placed, leads⟩
  · rw [write, write, unplaced]
  · have first : LeadsBelow (d.atClock e.clock) (d.spot out.root) absolute front u.fileName :=
      leads.of_cwd rfl
    have same := (grown.since e.clock).writeFailure?_eq grounded first rfl
    rw [write_of_place dry placed (leads.of_cwd grown.cwd) (grown.isGrounded grounded),
      write_of_place dry placed first grounded, same]

end Output

/-! ### Temporary names -/

/-- The same failure, but for the name of a temporary file that could not be made or renamed. -/
inductive Failure.Alike : Failure → Failure → Prop
  | same (failure : Failure) : Alike failure failure
  | uncreated (d : Disk) (now later : Nat) (dir path : String) (refusal : Refusal) :
      Alike (.fileSystem "write" path (some ((d.atClock now).uncreated dir path refusal)))
        (.fileSystem "write" path (some ((d.atClock later).uncreated dir path refusal)))
  | unrenamed (d : Disk) (now later : Nat) (dir path : String) (refusal : Refusal) :
      Alike (.fileSystem "write" path (some ((d.atClock now).unrenamed dir path refusal)))
        (.fileSystem "write" path (some ((d.atClock later).unrenamed dir path refusal)))

theorem Failure.code_fileSystem (verb path : String) (cause : Option Failure) :
    (fileSystem verb path cause).code = .fileSystem :=
  rfl

theorem Failure.Alike.code_eq {failure other : Failure} (alike : failure.Alike other) :
    failure.code = other.code := by
  cases alike with
  | same => rfl
  | uncreated => rw [code_fileSystem, code_fileSystem]
  | unrenamed => rw [code_fileSystem, code_fileSystem]

/-- The same outcome, or failures that are alike. -/
inductive AlikeResult {α : Type} : Except Failure α → Except Failure α → Prop
  | ok (value : α) : AlikeResult (.ok value) (.ok value)
  | error {failure other : Failure} (alike : failure.Alike other) :
      AlikeResult (.error failure) (.error other)

theorem AlikeResult.refl {α : Type} (result : Except Failure α) : AlikeResult result result := by
  cases result with
  | ok value => exact .ok value
  | error failure => exact .error (.same failure)

theorem AlikeResult.isOk {α : Type} {first second : Except Failure α} (alike : AlikeResult first second)
    (ok : first.isOk = true) : second.isOk = true := by
  cases alike with
  | ok value => rfl
  | error alike => cases ok

namespace Output

variable {out : Output} {u : GeneratedUnit} {d : Disk}

/-- A unit that cannot be written is a matter of the file system. -/
theorem code_of_write {failure : Failure} (failed : (out.write d u).path = .error failure) :
    failure.code = .fileSystem := by
  unfold write place at failed
  split at failed
  · next unplaced =>
    cases failed
    split at unplaced
    · cases unplaced
    · cases unplaced
      rfl
  · split at failed
    · cases failed
    · split at failed
      · cases failed
      · cases failed
        exact Failure.code_fileSystem _ _ _

/-- **The time of writing** shows in temporary names only. -/
theorem write_atClock (grounded : d.IsGrounded) (free : '/' ∉ u.className.toList) (now later : Nat) :
    AlikeResult (out.write (d.atClock now) u).path (out.write (d.atClock later) u).path := by
  by_cases dry : out.dryRun = true
  · rw [(write_of_dryRun dry u (d.atClock now)).1, (write_of_dryRun dry u (d.atClock later)).1]
    exact AlikeResult.refl _
  rcases place_cases out free d with ⟨failure, unplaced⟩ | ⟨absolute, front, placed, leads⟩
  · rw [write, write, unplaced]
    exact AlikeResult.refl _
  rw [write_of_place dry placed (leads.of_cwd rfl) (d := d.atClock now) grounded,
    write_of_place dry placed (leads.of_cwd rfl) (d := d.atClock later) grounded]
  have obstacles (time : Nat) : (d.atClock time).firstObstacle? absolute [] (d.ground absolute) front =
      d.firstObstacle? absolute [] (d.ground absolute) front :=
    Disk.firstObstacle?_congr _ _ _ fun _ _ => rfl
  have isDir (time : Nat) (place : Place) : (d.atClock time).isDirAt place = d.isDirAt place := rfl
  have ground (time : Nat) : (d.atClock time).ground absolute = d.ground absolute := rfl
  simp only [Disk.writeFailure?, obstacles, isDir, ground]
  cases d.firstObstacle? absolute [] (d.ground absolute) front with
  | some obstacle => split_ifs <;> exact AlikeResult.refl _
  | none =>
    rw [Disk.refusedPath?_temporary (d.atClock now) d, Disk.refusedPath?_temporary (d.atClock later) d]
    cases Disk.refusedPath? (d.temporary (ofComponents absolute front)) with
    | some refusal =>
      dsimp only
      split_ifs
      · exact AlikeResult.refl _
      · exact .error (.uncreated d now later _ _ refusal)
    | none =>
      cases Disk.blocked? (ofComponents absolute (front ++ [u.fileName])) u.fileName with
      | some refusal =>
        dsimp only
        split_ifs
        · exact AlikeResult.refl _
        · exact .error (.unrenamed d now later _ _ refusal)
      | none =>
        split_ifs
        · exact AlikeResult.refl _
        · exact .error (.unrenamed d now later _ _ .exists)
        · exact AlikeResult.refl _

end Output

end Forwarder
