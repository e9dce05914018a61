/-
**A file is written in full or not at all.** The text goes into a new file beside the place that the path
names, and this file takes the place in the last step. So whatever is refused on the way, the file at the
path holds the whole text, or every file is as it was. A path names a directory that is there if no name
stands at its end; nothing is written to such a path.

* `Disk.IsAtomic` — what writing a text to a path may come to.
* `Disk.Takes`, `Disk.takes_iff` — the path can be that of a file.
* `Disk.IsRoomy` — so can be that of a temporary file beside it.
* `Disk.refused_of_ups` — a path without a name at its end.
* `Disk.Succeeds` — no step of the writing is refused.
* **`Disk.write_atomic`** — writing a text to any path, at once or in steps.
-/

import Forwarder.Proofs.Disk.Rewriting
import Forwarder.Proofs.Files.Steps

namespace Forwarder.Disk

open Forwarder.Path (advance goal IsEntryName Normal ofComponents)

variable {d e : Disk} {here place : Place} {absolute : Bool} {front components : List String}
  {name path text : String} {t : Treatment}

/-! ### What writing may come to -/

/-- The file that the clean path leads to holds the whole text, and every other file is as before; or the
writing failed, and every file is as before. Directories may have been made above the place of the path,
where nothing was, and none of them holds a file unless it is the written one. No file is new but this
one, so none is left under a temporary name. -/
def IsAtomic (d : Disk) (path text : String) : Except Failure Unit × Disk → Prop
  | (.ok (), e) => e.place (Path.clean path) = .ok (d.spot path) ∧ WrittenAt d (d.spot path) text e ∧
      ∀ other, other ≠ d.spot path → e.file? other = d.file? other
  | (.error _, e) => Dug (fun above => above <+: d.spot path ∧ above ≠ d.spot path) d e ∧
      (∀ other, e.file? other = d.file? other) ∧
      ∀ made, d.entry? made = none → ∀ below, made <+: below → e.file? below = none

/-- The path can be that of a file: it is not empty and does not climb, the system takes it and all of
its names, no file is on the way to its place, and no directory is there. -/
structure Takes (d : Disk) (path : String) : Prop where
  some_ : path ≠ ""
  level : climbs (Path.clean path) = false
  allowed : refusedPath? (Path.clean path) = none
  short : ∀ name ∈ Path.components path, isTooLong name = false
  noFile : ∀ above, above <+: d.spot path → above ≠ d.spot path → d.file? above = none
  noDir : d.isDirAt (d.spot path) = false

/-- The system takes the path of a temporary file beside that of the file. -/
def IsRoomy (d : Disk) (path : String) : Prop :=
  refusedPath? (d.temporary (Path.dir (Path.clean path))) = none

/-! ### What is in the way -/

/-- A shorter path is refused for no reason but those of the longer one. -/
theorem allowed_of_append {back : List String} (normal : Normal absolute (front ++ back))
    (allowed : refusedPath? (ofComponents absolute (front ++ back)) = none) :
    refusedPath? (ofComponents absolute front) = none := by
  induction back using List.reverseRecOn with
  | nil => rwa [List.append_nil] at allowed
  | append_singleton back last ih =>
    rw [← List.append_assoc] at normal allowed
    refine ih normal.of_append.1 ?_
    have some_ := Path.ne_empty_ofComponents normal.of_append.1
    rcases eq_or_ne (front ++ back) [] with none_ | more
    · rw [none_]
      cases absolute <;> decide
    · rw [Path.ofComponents_concat more, String.append_assoc] at allowed
      generalize ofComponents absolute (front ++ back) = shorter at some_ allowed ⊢
      unfold refusedPath? at allowed ⊢
      have notEmpty : shorter.isEmpty = false := by simpa using some_
      simp only [String.toList_append, String.utf8ByteSize_append] at allowed
      split_ifs at allowed with _ nul long
      rw [notEmpty, if_neg Bool.false_ne_true, if_neg, if_neg]
      · omega
      · simp only [List.contains_eq_mem, List.mem_append, decide_eq_true_eq] at nul ⊢
        exact fun member => nul (.inl member)

/-- Nothing is in the way exactly if there is no obstacle at any component. -/
theorem firstObstacle?_eq_none_iff : d.firstObstacle? absolute front here components = none ↔
    ∀ before c after, components = before ++ c :: after →
      d.obstacle? absolute (front ++ before) (goal here before) c = none := by
  induction components generalizing front here with
  | nil => exact ⟨fun _ _ _ _ split => by simp at split, fun _ => rfl⟩
  | cons first rest ih =>
    rw [firstObstacle?]
    cases found : d.obstacle? absolute front here first with
    | some obstacle =>
      refine ⟨fun nothing => absurd nothing (Option.some_ne_none obstacle), fun free => ?_⟩
      have none_ := free [] first rest rfl
      rw [List.append_nil, goal, List.foldl_nil, found] at none_
      cases none_
    | none =>
      simp only [ih]
      constructor
      · intro free before c after split
        cases before with
        | nil =>
          obtain ⟨rfl, -⟩ := List.cons.inj split
          rwa [List.append_nil]
        | cons other before =>
          obtain ⟨rfl, others⟩ := List.cons.inj split
          have later := free before c after others
          rwa [List.append_assoc] at later
      · intro free before c after split
        have later := free (first :: before) c after (congrArg _ split)
        rwa [List.append_cons] at later

/-- Whatever is above the goal is above the place where it starts, or on the way. -/
theorem above_goal {above : Place} (isAbove : above <+: goal here components) :
    above <+: here ∨ above ∈ stations here components := by
  induction components generalizing here with
  | nil => exact .inl isAbove
  | cons c rest ih =>
    rcases ih isAbove with early | member
    · have step : above <+: here ∨ above = advance here c := by
        rw [advance] at early ⊢
        split_ifs at early ⊢
        · exact .inl early
        · exact .inl (early.trans (List.dropLast_prefix here))
        · exact (List.prefix_concat_iff.mp early).symm
      rcases step with isAbove | rfl
      · exact .inl isAbove
      · exact .inr List.mem_cons_self
    · exact .inr (List.mem_cons_of_mem _ member)

/-- Every place on the way is that of a component. -/
theorem exists_of_mem_stations (member : place ∈ stations here components) :
    ∃ before c after, components = before ++ c :: after ∧ place = advance (goal here before) c := by
  induction components generalizing here with
  | nil => cases member
  | cons first rest ih =>
    rcases List.mem_cons.mp member with rfl | later
    · exact ⟨[], first, rest, rfl, rfl⟩
    · obtain ⟨before, c, after, rfl, rfl⟩ := ih later
      exact ⟨first :: before, c, after, rfl, rfl⟩

theorem mem_stations_of_split {before after : List String} {c : String}
    (split : components = before ++ c :: after) : advance (goal here before) c ∈ stations here components := by
  subst split
  induction before generalizing here with
  | nil => exact List.mem_cons_self
  | cons first before ih => exact List.mem_cons_of_mem _ ih

theorem noFile_of_isDirAt (isDir : d.isDirAt place = true) : d.file? place = none := by
  rw [Disk.file?, isDirAt_iff.mp isDir]

theorem spot_name (normal : Normal absolute front) (isName : IsEntryName name) :
    d.spot (ofComponents absolute (front ++ [name])) = goal (d.ground absolute) front ++ [name] := by
  rw [spot_ofComponents (normal.concat isName), Path.goal_append,
    Path.goal_names (List.forall_mem_singleton.mpr isName)]

theorem above_concat {above : Place} (isAbove : above <+: here) :
    above <+: here ++ [name] ∧ above ≠ here ++ [name] := by
  refine ⟨isAbove.trans (List.prefix_append _ _), fun same => ?_⟩
  have shorter := isAbove.length_le
  rw [same, List.length_append, List.length_singleton] at shorter
  exact absurd shorter (Nat.not_succ_le_self _)

/-- **A path with a name at its end** is that of a file if the file can have the name. -/
theorem takes_iff (normal : Normal absolute front) (isName : IsEntryName name) (grounded : d.IsGrounded) :
    d.Takes (ofComponents absolute (front ++ [name])) ↔ d.Fits absolute front name := by
  have both := normal.concat isName
  have isSpot := spot_name normal isName (d := d)
  have onWay {above : Place} (isAbove : above <+: goal (d.ground absolute) front ++ [name])
      (other : above ≠ goal (d.ground absolute) front ++ [name]) : above <+: goal (d.ground absolute) front :=
    (List.prefix_concat_iff.mp isAbove).resolve_left other
  have atGround {above : Place} (isAbove : above <+: d.ground absolute) : d.file? above = none :=
    noFile_of_isDirAt (grounded _ (isAbove.trans (ground_above d absolute)))
  constructor
  · intro takes
    have allowed := takes.allowed
    have short := takes.short
    have noFile := takes.noFile
    rw [Path.clean_ofComponents both] at allowed
    rw [Path.components_ofComponents both] at short
    rw [isSpot] at noFile
    refine ⟨Path.clean_ofComponents both ▸ takes.level,
      firstObstacle?_eq_none_iff.mpr fun before c after split => ?_,
      blocked?_eq_none.mpr ⟨allowed, short name (List.mem_append_right _ (List.mem_singleton_self _))⟩,
      isSpot ▸ takes.noDir⟩
    refine obstacle?_eq_none.mpr ⟨blocked?_eq_none.mpr ⟨?_, ?_⟩, ?_⟩
    · rw [List.nil_append]
      have whole : front ++ [name] = before ++ [c] ++ (after ++ [name]) := by rw [split]; simp
      rw [whole] at allowed both
      exact allowed_of_append both allowed
    · exact short c (by rw [split]; simp)
    · rw [Option.isSome_eq_false_iff, Option.isNone_iff_eq_none]
      rcases mem_stations normal (mem_stations_of_split split) with isAbove | isAbove
      · obtain ⟨isAbove, other⟩ : _ <+: _ ++ [name] ∧ _ := above_concat isAbove
        exact noFile _ isAbove other
      · exact atGround isAbove
  · rintro ⟨level, free, allowed, noDir⟩
    obtain ⟨allowed, short⟩ := blocked?_eq_none.mp allowed
    refine ⟨Path.ne_empty_ofComponents both, by rwa [Path.clean_ofComponents both],
      by rwa [Path.clean_ofComponents both], ?_, fun above isAbove other => ?_, by rwa [isSpot]⟩
    · rw [Path.components_ofComponents both]
      refine List.forall_mem_append.mpr ⟨?_, List.forall_mem_singleton.mpr short⟩
      exact short_of_free free
    · rw [isSpot] at isAbove other
      rcases above_goal (onWay isAbove other) with early | member
      · exact atGround early
      · obtain ⟨before, c, after, split, rfl⟩ := exists_of_mem_stations member
        have noFile := (obstacle?_eq_none.mp (firstObstacle?_eq_none_iff.mp free before c after split)).2
        exact Option.isNone_iff_eq_none.mp (Option.isSome_eq_false_iff.mp noFile)

/-! ### A path without a name at its end -/

/-- Normal components end in a name, or they only lead up. -/
theorem name_or_ups (normal : Normal absolute components) :
    (∃ front name, components = front ++ [name] ∧ Normal absolute front ∧ IsEntryName name) ∨
      ∀ c ∈ components, c = ".." := by
  induction components using List.reverseRecOn with
  | nil => exact .inr (List.forall_mem_nil _)
  | append_singleton front last _ =>
    rcases normal.each last (List.mem_append_right _ (List.mem_singleton_self _)) with isName | ⟨rfl, -⟩
    · exact .inl ⟨front, last, rfl, normal.of_append.1, isName⟩
    · exact .inr (List.forall_mem_append.mpr ⟨normal.parents, List.forall_mem_singleton.mpr rfl⟩)

theorem dir_eq_dropLast (normal : Normal absolute components) :
    Path.dir (ofComponents absolute components) = ofComponents absolute components.dropLast := by
  induction components using List.reverseRecOn with
  | nil => cases absolute <;> decide
  | append_singleton front last _ => rw [Path.dir_ofComponents normal, List.dropLast_concat]

section Ups

variable (normal : Normal absolute components) (ups : ∀ c ∈ components, c = "..")

include ups in
/-- Leading up leads to places above. -/
theorem above_of_ups : ∀ place ∈ here :: stations here components, place <+: here := by
  induction components generalizing here with
  | nil => exact List.forall_mem_singleton.mpr (List.prefix_refl _)
  | cons c rest ih =>
    obtain ⟨rfl, others⟩ := List.forall_mem_cons.mp ups
    refine List.forall_mem_cons.mpr ⟨List.prefix_refl _, fun place member => ?_⟩
    exact (ih others place member).trans (List.dropLast_prefix here)

include ups in
theorem goal_above_cwd : goal (d.ground absolute) components <+: d.cwd :=
  (above_of_ups ups _ (goal_mem_stations _ _)).trans (ground_above d absolute)

include normal ups in
/-- Nothing can be renamed to such a path: a directory is there, or the system refuses it. -/
theorem refused_of_ups (grounded : d.IsGrounded) :
    d.resolve (ofComponents absolute components) = .ok .dir ∨
      ∃ refusal, d.target (ofComponents absolute components) = .error refusal := by
  cases refused : refusedPath? (ofComponents absolute components) with
  | some refusal =>
    refine .inr ⟨refusal, ?_⟩
    rw [target, refused]
  | none =>
    have isDir {above : Place} (isAbove : above <+: d.ground absolute) : d.isDirAt above = true :=
      grounded above (isAbove.trans (ground_above d absolute))
    have short : ∀ c ∈ components, isTooLong c = false := fun c member => by
      rw [ups c member]
      decide
    have followed := follow_stations (isDir (List.prefix_refl _))
      (fun place member => isDir (above_of_ups ups place (List.mem_cons_of_mem _ member))) short
    have stands := place_ofComponents normal grounded.cwd
    rw [refused] at stands
    refine .inl (resolve_eq_ok.mpr ⟨_, stands.trans followed, ?_⟩)
    exact isDirAt_iff.mp (grounded _ (goal_above_cwd ups))

theorem replace_refused (dir text : String)
    (refused : d.resolve path = .ok .dir ∨ ∃ refusal, d.target path = .error refusal) :
    ∃ fault, d.replace dir path text = .error fault := by
  rw [replace, install]
  cases refusedPath? (d.temporary dir) with
  | some refusal => exact ⟨_, rfl⟩
  | none =>
    rcases refused with isDir | ⟨refusal, unnamed⟩
    · rw [isDir]
      exact ⟨_, rfl⟩
    · rw [unnamed]
      rcases d.resolve path with fault | _ | file <;> exact ⟨_, rfl⟩

theorem rename_refused {file : File} (temporary : String)
    (refused : d.resolve path = .ok .dir ∨ ∃ refusal, d.target path = .error refusal) :
    ∃ fault, d.rename place file temporary path = .error fault := by
  rw [rename]
  rcases refused with isDir | ⟨refusal, unnamed⟩
  · rw [isDir]
    exact ⟨_, rfl⟩
  · rw [unnamed]
    rcases d.resolve path with fault | _ | file <;> exact ⟨_, rfl⟩

include normal ups in
/-- No directory is made on the way up. -/
theorem dug_ups {places : Place → Prop} (grounded : d.IsGrounded) (room : Option (Nat × Failure)) :
    Dug places d (d.makeDirsInSteps room (ofComponents absolute components)).2 := by
  refine (dug_makeDirsInSteps normal grounded room).mono fun place isAbove nothing => ?_
  have isDir := grounded place (isAbove.trans (goal_above_cwd ups))
  rw [isDirAt_iff, nothing] at isDir
  cases isDir

theorem normal_dropLast (normal : Normal absolute components) : Normal absolute components.dropLast :=
  ⟨fun c member => normal.each c (List.mem_of_mem_dropLast member),
    normal.direct.sublist (List.dropLast_sublist _)⟩

include normal ups in
/-- **A path without a name at its end** is not written to, and no directory is made. -/
theorem write_ups {places : Place → Prop} (grounded : d.IsGrounded) (text : String) :
    ∃ failure e, d.write (ofComponents absolute components) text = (.error failure, e) ∧ Dug places d e := by
  rw [write, checkedPath_ofComponents normal]
  split_ifs with climbs_
  · exact ⟨_, d, rfl, .refl _ d⟩
  have upsAbove : ∀ c ∈ components.dropLast, c = ".." := fun c member => ups c (List.mem_of_mem_dropLast member)
  have dug : Dug places d (d.makeDirs (ofComponents absolute components.dropLast)).2 := by
    rw [← makeDirsInSteps_none]
    exact dug_ups (normal_dropLast normal) upsAbove grounded none
  simp only [dir_eq_dropLast normal]
  generalize d.makeDirs (ofComponents absolute components.dropLast) = outcome at dug ⊢
  obtain ⟨obstacle, made⟩ := outcome
  cases obstacle with
  | some obstacle => exact ⟨_, made, rfl, dug⟩
  | none =>
    obtain ⟨fault, isFault⟩ := replace_refused (ofComponents absolute components.dropLast) text
      (refused_of_ups normal ups (dug.isGrounded grounded))
    dsimp only at isFault ⊢
    rw [isFault]
    exact ⟨_, made, rfl, dug⟩

include normal ups in
/-- Nor is it written to in steps. -/
theorem writeInSteps_ups {places : Place → Prop} (grounded : d.IsGrounded) (t : Treatment) (text : String) :
    ∃ failure e, d.writeInSteps t (ofComponents absolute components) text = (.error failure, e) ∧
      Dug places d e := by
  rw [writeInSteps, checkedPath_ofComponents normal]
  split_ifs with climbs_
  · exact ⟨_, d, rfl, .refl _ d⟩
  have upsAbove : ∀ c ∈ components.dropLast, c = ".." := fun c member => ups c (List.mem_of_mem_dropLast member)
  have dug : Dug places d (d.makeDirsInSteps t.room (ofComponents absolute components.dropLast)).2 :=
    dug_ups (normal_dropLast normal) upsAbove grounded t.room
  simp only [dir_eq_dropLast normal]
  cases limit : t.room with
  | some limit =>
    rw [limit] at dug
    exact ⟨_, _, rfl, dug⟩
  | none =>
    have along := makeDirs_along (normal_dropLast normal) grounded
    rw [limit] at dug
    simp only [makeDirsInSteps] at dug ⊢
    generalize d.makeDirs (ofComponents absolute components.dropLast) = outcome at along dug ⊢
    obtain ⟨obstacle, made⟩ := outcome
    cases obstacle with
    | some obstacle => exact ⟨_, made, rfl, dug⟩
    | none =>
      have grounded' := dug.isGrounded grounded
      rcases replaceInSteps_or (along.2.2 rfl).1 t (ofComponents absolute components) text with
        ⟨failure, failed, -⟩ | ⟨nothing, shown, isOutcome⟩
      · dsimp only [Option.map_none]
        rw [failed]
        exact ⟨_, made, rfl, dug⟩
      · -- The directories above the working directory are there beside the new file, too.
        have stays := fun entry : Entry => refused_of_ups normal ups
          (d := made.put (goal (d.ground absolute) components.dropLast ++ [t.name]) entry)
          fun above isAbove => isDirAt_put_new nothing entry (grounded' above isAbove)
        obtain ⟨fault, isFault⟩ := rename_refused shown (stays _)
        rw [isFault] at isOutcome
        dsimp only [Option.map_none]
        rw [isOutcome]
        exact ⟨_, made, rfl, dug⟩

include ups in
/-- A directory is at such a path. -/
theorem not_takes_ups (normal : Normal absolute components) (grounded : d.IsGrounded) :
    ¬d.Takes (ofComponents absolute components) := by
  intro takes
  have noDir := takes.noDir
  rw [spot_ofComponents normal, grounded _ (goal_above_cwd ups)] at noDir
  cases noDir

end Ups

/-! ### Every path -/

/-- A path that is not taken as it stands, and one that can be written as it is clean. -/
theorem checkedPath_cases (path : String) :
    (∃ failure, checkedPath path = .error failure ∧ ¬d.Takes path) ∨
      checkedPath path = .ok (Path.clean path) ∧ checkedPath (Path.clean path) = .ok (Path.clean path) ∧
        (d.Takes (Path.clean path) ↔ d.Takes path) := by
  have some_ := Path.clean_ne_empty path
  by_cases empty : path = ""
  · exact .inl ⟨_, by rw [empty]; rfl, fun takes => takes.some_ empty⟩
  have isSome : path.isEmpty = false := by simpa using empty
  have isSome' : (Path.clean path).isEmpty = false := by simpa using some_
  rw [checkedPath, checkedPath, isSome, isSome', if_neg Bool.false_ne_true, if_neg Bool.false_ne_true,
    Path.clean_clean]
  dsimp only
  split_ifs with climbs_
  · exact .inl ⟨_, rfl, fun takes => Bool.false_ne_true (takes.level.symm.trans climbs_)⟩
  · refine .inr ⟨rfl, rfl, fun takes => ?_, fun takes => ?_⟩
    · obtain ⟨-, level, allowed, short, noFile, noDir⟩ := takes
      rw [Path.clean_clean] at level allowed
      rw [Path.components_clean] at short
      rw [spot_clean] at noFile noDir
      exact ⟨empty, level, allowed, short, noFile, noDir⟩
    · obtain ⟨-, level, allowed, short, noFile, noDir⟩ := takes
      refine ⟨some_, ?_, ?_, ?_, ?_, ?_⟩
      · rwa [Path.clean_clean]
      · rwa [Path.clean_clean]
      · rwa [Path.components_clean]
      · rwa [spot_clean]
      · rwa [spot_clean]

/-- What writing leaves of a file: it is found under its path, and nothing else is different but for
directories above it. -/
structure Holds (d : Disk) (path text : String) (e : Disk) : Prop where
  found : e.place (Path.clean path) = .ok (d.spot path)
  written : WrittenAt d (d.spot path) text e
  others : ∀ other, other ≠ d.spot path → e.file? other = d.file? other

theorem Fits.holds (fits : d.Fits absolute front name) (normal : Normal absolute front)
    (isName : IsEntryName name) (grounded : d.IsGrounded) (text : String) :
    d.Holds (ofComponents absolute (front ++ [name])) text (d.written absolute front name text) := by
  have both := normal.concat isName
  obtain ⟨file, ⟨found, -⟩, -⟩ := fits.fileAt_written normal isName grounded text
  have written := fits.writtenAt normal grounded text
  rw [← spot_name normal isName] at found written
  exact ⟨by rwa [Path.clean_ofComponents both], written, fun other => written.file?⟩

theorem holds_clean (path : String) : d.Holds (Path.clean path) text e ↔ d.Holds path text e := by
  constructor
  · rintro ⟨found, written, others⟩
    rw [Path.clean_clean, spot_clean] at found
    rw [spot_clean] at written others
    exact ⟨found, written, others⟩
  · rintro ⟨found, written, others⟩
    refine ⟨?_, ?_, ?_⟩
    · rwa [Path.clean_clean, spot_clean]
    · rwa [spot_clean]
    · rwa [spot_clean]

/-- Writing at once fails where no file can be, or no temporary one beside it, and succeeds everywhere
else. -/
theorem write_cases (grounded : d.IsGrounded) (path text : String) :
    (∃ failure e, d.write path text = (.error failure, e) ∧ ¬(d.Takes path ∧ d.IsRoomy path) ∧
        Dug (fun above => above <+: d.spot path ∧ above ≠ d.spot path) d e) ∨
      ∃ e, d.write path text = (.ok (), e) ∧ (d.Takes path ∧ d.IsRoomy path) ∧ d.Holds path text e := by
  rcases checkedPath_cases (d := d) path with ⟨failure, unchecked, refused⟩ | ⟨checked, again, same⟩
  · rw [write, unchecked]
    exact .inl ⟨_, d, rfl, fun both => refused both.1, .refl _ d⟩
  have sameWrite : d.write path text = d.write (Path.clean path) text := by rw [write, write, checked, again]
  have sameRoom : d.IsRoomy path ↔ d.IsRoomy (Path.clean path) := by rw [IsRoomy, IsRoomy, Path.clean_clean]
  rw [sameWrite, ← same, sameRoom, ← spot_clean]
  simp only [← holds_clean path]
  have normal := Path.normal_components path
  rw [Path.clean]
  generalize Path.isAbsolute path = absolute at normal ⊢
  rcases name_or_ups normal with ⟨front, name, isPath, normal, isName⟩ | ups
  · have both := normal.concat isName
    rw [isPath, takes_iff normal isName grounded, IsRoomy, Path.clean_ofComponents both,
      Path.dir_ofComponents both, ← writable_iff, write_closed normal isName grounded, spot_name normal isName]
    cases writable : d.writeFailure? absolute front name with
    | some failure =>
      have dug := (write_eq normal isName grounded text)
      rw [writable, write_closed normal isName grounded, writable] at dug
      exact .inl ⟨failure, _, rfl, Option.some_ne_none failure,
        dug.2.mono fun above isAbove _ => above_concat isAbove⟩
    | none => exact .inr ⟨_, rfl, rfl, (writable_iff.mp writable).1.holds normal isName grounded text⟩
  · obtain ⟨failure, e, isOutcome, dug⟩ := write_ups normal ups grounded text
    exact .inl ⟨failure, e, isOutcome, fun both => not_takes_ups ups normal grounded both.1, dug⟩

/-- No step is refused, and the temporary name is free beside the place of the path. -/
structure Succeeds (d : Disk) (t : Treatment) (path : String) : Prop where
  room : t.room = none
  steps : ∀ step, t.refusal step = none
  free : d.entry? ((d.spot path).dropLast ++ [t.name]) = none

/-- Writing in steps fails and leaves directories at most, or it leaves the written file. -/
theorem writeInSteps_or (grounded : d.IsGrounded) (t : Treatment) (path text : String) :
    (∃ failure e, d.writeInSteps t path text = (.error failure, e) ∧ (d.Succeeds t path → ¬d.Takes path) ∧
        Dug (fun above => above <+: d.spot path ∧ above ≠ d.spot path) d e) ∨
      ∃ e, d.writeInSteps t path text = (.ok (), e) ∧ d.Takes path ∧ d.Holds path text e := by
  rcases checkedPath_cases (d := d) path with ⟨failure, unchecked, refused⟩ | ⟨checked, again, same⟩
  · rw [writeInSteps, unchecked]
    exact .inl ⟨_, d, rfl, fun _ => refused, .refl _ d⟩
  have sameSteps : d.writeInSteps t path text = d.writeInSteps t (Path.clean path) text := by
    rw [writeInSteps, writeInSteps, checked, again]
  have sameFree : d.Succeeds t path ↔ d.Succeeds t (Path.clean path) :=
    ⟨fun succeeds => ⟨succeeds.room, succeeds.steps, (spot_clean d path).symm ▸ succeeds.free⟩,
      fun succeeds => ⟨succeeds.room, succeeds.steps, spot_clean d path ▸ succeeds.free⟩⟩
  rw [sameSteps, ← same, sameFree, ← spot_clean]
  simp only [← holds_clean path]
  have normal := Path.normal_components path
  rw [Path.clean]
  generalize Path.isAbsolute path = absolute at normal ⊢
  rcases name_or_ups normal with ⟨front, name, isPath, normal, isName⟩ | ups
  · rw [isPath, takes_iff normal isName grounded]
    have isSpot := spot_name normal isName (d := d)
    rcases writeInSteps_cases normal isName grounded text with ⟨⟨failure, failed⟩, dug, unfair⟩ | ⟨fits, done⟩
    · refine .inl ⟨failure, _, Prod.ext failed rfl, fun succeeds => ?_,
        dug.mono fun above isAbove _ => isSpot ▸ above_concat isAbove⟩
      have free := succeeds.free
      rw [isSpot, List.dropLast_concat] at free
      exact unfair succeeds.room succeeds.steps free
    · exact .inr ⟨_, done, fits, fits.holds normal isName grounded text⟩
  · obtain ⟨failure, e, isOutcome, dug⟩ := writeInSteps_ups normal ups grounded t text
    exact .inl ⟨failure, e, isOutcome, fun _ => not_takes_ups ups normal grounded, dug⟩

/-- Where every file is as before, the directories that were made are empty. -/
theorem isAtomic_of_dug (tree : d.IsTree) (failure : Failure)
    (dug : Dug (fun above => above <+: d.spot path ∧ above ≠ d.spot path) d e) :
    IsAtomic d path text (.error failure, e) := by
  refine ⟨dug, dug.file?, fun made nothing below isBelow => ?_⟩
  rw [dug.file?, Disk.file?]
  cases found : d.entry? below with
  | none => rfl
  | some entry =>
    rcases eq_or_ne made below with rfl | other
    · rw [nothing] at found
      cases found
    · have isDir := tree.isDirAt found isBelow other
      rw [isDirAt_iff, nothing] at isDir
      cases isDir

/-- **A file is written in full or not at all.** At once it is written exactly to the paths that can be
those of a file, with room for a temporary one beside it. In steps it is written to no path that cannot be
that of a file, and to each that can if the steps succeed. -/
theorem write_atomic (tree : d.IsTree) (path text : String) :
    IsAtomic d path text (d.write path text) ∧
      ((d.write path text).1 = .ok () ↔ d.Takes path ∧ d.IsRoomy path) ∧
      ∀ t : Treatment, IsAtomic d path text (d.writeInSteps t path text) ∧
        ((d.writeInSteps t path text).1 = .ok () → d.Takes path) ∧
        (d.Succeeds t path → d.Takes path → (d.writeInSteps t path text).1 = .ok ()) := by
  refine ⟨?_, ?_, fun t => ?_⟩
  · rcases write_cases tree.isGrounded path text with ⟨failure, e, isOutcome, -, dug⟩ | ⟨e, isOutcome, -, holds⟩
    · rw [isOutcome]
      exact isAtomic_of_dug tree failure dug
    · rw [isOutcome]
      exact ⟨holds.found, holds.written, holds.others⟩
  · rcases write_cases tree.isGrounded path text with ⟨failure, e, isOutcome, refused, -⟩ | ⟨e, isOutcome, takes, -⟩
    · rw [isOutcome]
      exact ⟨nofun, fun takes => absurd takes refused⟩
    · rw [isOutcome]
      exact ⟨fun _ => takes, fun _ => rfl⟩
  · rcases writeInSteps_or tree.isGrounded t path text with
      ⟨failure, e, isOutcome, refused, dug⟩ | ⟨e, isOutcome, takes, holds⟩
    · rw [isOutcome]
      exact ⟨isAtomic_of_dug tree failure dug, nofun, fun succeeds takes => absurd takes (refused succeeds)⟩
    · rw [isOutcome]
      exact ⟨⟨holds.found, holds.written, holds.others⟩, fun _ => takes, fun _ _ => rfl⟩

/-- A file beside a directory, in the working directory. -/
def besideDisk : Disk :=
  ((Disk.bare ["w"]).put ["w", "a"] (.file ⟨.text "x", .given 1⟩)).put ["w", "b"] .dir

/-- A file is written into the directory, but nothing is written below the file, over the directory or to a
path that climbs, whatever the system refuses. -/
theorem write_atomic_beside :
    besideDisk.IsTree ∧
      IsAtomic besideDisk "c/../b/A.java" "class A{}" (besideDisk.write "c/../b/A.java" "class A{}") ∧
      (besideDisk.write "c/../b/A.java" "class A{}").1 = .ok () ∧
      ∀ path ∈ ["", ".", "..", "b", "a/A.java", "/w/..a"], ∀ t : Treatment, ∀ text,
        IsAtomic besideDisk path text (besideDisk.writeInSteps t path text) ∧
          (besideDisk.writeInSteps t path text).1 ≠ .ok () := by
  have tree : besideDisk.IsTree := by decide
  have written : (besideDisk.write "c/../b/A.java" "class A{}").1 = .ok () := by rfl
  refine ⟨tree, (write_atomic tree _ _).1, written, fun path member t text => ?_⟩
  obtain ⟨atomic, takes, -⟩ := (write_atomic tree path text).2.2 t
  refine ⟨atomic, fun done => ?_⟩
  have none_ : ∀ path ∈ ["", ".", "..", "b", "a/A.java", "/w/..a"],
      (besideDisk.write path "").1.toOption.isSome = false := by decide +kernel
  have roomy : ∀ path ∈ ["", ".", "..", "b", "a/A.java", "/w/..a"], besideDisk.IsRoomy path := by
    unfold IsRoomy
    decide +kernel
  have refused := none_ path member
  rw [(write_atomic tree path "").2.1.mpr ⟨takes done, roomy path member⟩] at refused
  cases refused

end Forwarder.Disk
