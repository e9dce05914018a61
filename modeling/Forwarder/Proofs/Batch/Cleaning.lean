/-
**Cleaning removes what was generated.** A file was generated if it has the name of a source file and starts
with the line that marks generated files. Cleaning removes those of these files that lie below the listed
directories, and touches nothing else.

* `IsHeaded`, `Disk.IsStamped` — a text that starts with the marking line, a file that was generated.
* `Disk.IsLevel` — no name on the disk holds two points in a row.
* `Disk.Reaches` — the place lies below the root, and the system takes its path.
* `Disk.generatedBelow_spec` — what is found below one directory.
* **`Disk.isRemoval_cleanEach`** — what is removed below several directories, one after the other.
* `Runs.stamped` — every file that a run has written was generated.
* **`Disk.clean_exact`** — what a cleaning removes and what it leaves.
-/

import Forwarder.Proofs.Batch.Overwriting
import Forwarder.Proofs.Batch.Rescan
import Forwarder.Proofs.Disk.Removing
import Forwarder.Proofs.Files.Level

namespace Forwarder

open Forwarder.Path (IsEntryName Normal ofComponents)

/-! ### First lines -/

/-- The first line of the text, without a carriage return at its end, is the one that marks generated
files. -/
def IsHeaded (text : String) : Prop :=
  withoutReturn (text.toList.takeWhile (· != '\n')) = Forwarding.headerLine.toList

instance (text : String) : Decidable (IsHeaded text) :=
  inferInstanceAs (Decidable (_ = _))

/-- The marking line is found within the limit. -/
theorem firstLineWithin_eq_header {text : String} :
    firstLineWithin Disk.headerLimit text = some Forwarding.headerLine ↔ IsHeaded text := by
  rw [firstLineWithin, IsHeaded]
  generalize text.toList.takeWhile (· != '\n') = line
  constructor
  · intro first
    split_ifs at first with short
    rw [← Option.some.inj first, String.toList_ofList]
  · intro header
    have short : ((String.ofList line).utf8ByteSize : Int) < Disk.headerLimit := by
      rw [withoutReturn] at header
      split_ifs at header with ends
      · obtain ⟨front, rfl⟩ := List.getLast?_eq_some_iff.mp ends
        rw [List.dropLast_concat] at header
        rw [header]
        decide
      · rw [header]
        decide
    rw [if_pos short, header, String.ofList_toList]

namespace Disk

variable {d : Disk} {path root : String} {place top rest : Place} {file : File}

/-! ### Generated files -/

/-- A file that was generated is at the place. -/
def IsStamped (d : Disk) (place : Place) : Prop :=
  ∃ name file, place.getLast? = some name ∧ d.file? place = some file ∧ isSourceFile name = true ∧
    IsHeaded file.content.asText

theorem IsStamped.exists_file {d : Disk} {place : Place} (stamped : d.IsStamped place) :
    ∃ file, d.file? place = some file := by
  obtain ⟨_, file, -, isFile, -⟩ := stamped
  exact ⟨file, isFile⟩

/-- No name on the disk holds two points in a row. -/
def IsLevel (d : Disk) : Prop :=
  ∀ entry ∈ d.entries, ∀ name ∈ entry.1, NeverClimbs name

instance (d : Disk) : Decidable d.IsLevel :=
  inferInstanceAs (Decidable (∀ _ ∈ _, _))

/-- On such a disk every path that leads somewhere is level. -/
theorem isLevel_of_resolve (level : d.IsLevel) {entry : Entry} (found : d.resolve path = .ok entry) :
    Path.IsLevel path := by
  have normal := Path.normal_components path
  cases isComponents : Path.components path with
  | nil =>
    refine .inr fun name member => ?_
    rw [isComponents] at member
    cases member
  | cons first others =>
    rw [isComponents] at normal
    rcases normal.each first List.mem_cons_self with isName | ⟨rfl, relative⟩
    · -- the path leads down only, through names on the disk
      refine .inr fun name member => ?_
      rw [isComponents] at member
      obtain ⟨place, isPlace, isEntry⟩ := resolve_eq_ok.mp found
      have isHere : place = d.ground (Path.isAbsolute path) ++ first :: others := by
        rw [spot_of_place isPlace, spot_eq_goal, isComponents, Path.goal_names (normal.names isName)]
      have inner : place ≠ [] := isHere ▸ List.append_ne_nil_of_right_ne_nil _ (List.cons_ne_nil _ _)
      rw [Disk.entry?, if_neg inner] at isEntry
      refine level _ (mem_of_lookup_eq_some isEntry) name ?_
      rw [isHere]
      exact List.mem_append_right _ member
    · left
      have chars : (Path.clean path).toList =
          Text.joinWith '/' (['.', '.'] :: others.map String.toList) := by
        rw [Path.clean, isComponents, relative, ofComponents, if_neg Bool.false_ne_true,
          if_neg (by simp), Path.slash_eq, Text.toList_join]
        rfl
      rw [Text.startsBy, chars, List.isPrefixOf_iff_prefix]
      cases others <;> exact List.prefix_append _ _

/-- The first line of a file that is there. -/
theorem firstLine_eq_ok (proper : d.IsProper) (level : d.IsLevel) (isAt : d.FileAt path place file)
    {limit : Int} {line : String} : d.firstLine path limit = .ok line ↔
      firstLineWithin limit file.content.asText = some line := by
  have found := resolve_eq_file.mpr ⟨place, isAt⟩
  have some_ : path ≠ "" := by
    rintro rfl
    cases found
  have cleaned := proper.resolve_clean found
  have existing : d.existingPath path = .ok (Path.clean path) := by
    have present : d.isMissing (Path.clean path) = false := by
      unfold isMissing
      rw [cleaned]
    rw [existingPath, checkedPath_eq some_, if_pos (isLevel_of_resolve level found)]
    exact if_neg (by rw [present]; exact Bool.false_ne_true)
  obtain ⟨_, isAt'⟩ := resolve_eq_file.mp cleaned
  rw [firstLine, existing]
  simp only [isAt'.readFile]
  cases firstLineWithin limit file.content.asText <;> simp

theorem isGenerated_eq_true : d.isGenerated path = true ↔
    isSourceFile (Path.base path) = true ∧ d.firstLine path headerLimit = .ok Forwarding.headerLine := by
  rw [isGenerated, Bool.and_eq_true]
  cases d.firstLine path headerLimit <;> simp

/-- A file is taken for generated exactly if it was. -/
theorem isGenerated_iff (proper : d.IsProper) (level : d.IsLevel) (isAt : d.FileAt path place file) :
    d.isGenerated path = true ↔ d.IsStamped place := by
  have ends := proper.toIsTree.base_eq isAt
  rw [isGenerated_eq_true, firstLine_eq_ok proper level isAt, firstLineWithin_eq_header, IsStamped]
  constructor
  · rintro ⟨isSource, headed⟩
    exact ⟨_, file, ends, isAt.2, isSource, headed⟩
  · rintro ⟨name, other, isName, isFile, isSource, headed⟩
    obtain rfl := Option.some.inj (isName.symm.trans ends)
    obtain rfl := Option.some.inj (isFile.symm.trans isAt.2)
    exact ⟨isSource, headed⟩

/-! ### Walks -/

/-- The place lies below the root, and the system takes the path under which a walk returns it. -/
def Reaches (d : Disk) (root : String) (place : Place) : Prop :=
  ∃ top rest, d.place root = .ok top ∧ place = top ++ rest ∧ refusedPath? (walkedPath root rest) = none

/-- The path under which a walk returns a file names its place. -/
theorem spot_walkedPath (isTop : d.place root = .ok top) (names : ∀ c ∈ rest, IsEntryName c) :
    d.spot (walkedPath root rest) = top ++ rest := by
  have isRoot : root ≠ "" := by
    rintro rfl
    cases isTop
  by_cases isHere : rest = []
  · rw [isHere, walkedPath, List.isEmpty_nil, if_pos rfl, List.append_nil, spot_of_place isTop]
  · have normal := (Path.normal_components root).append names
    rw [walkedPath_below isRoot names isHere, spot_ofComponents normal, Path.goal_append,
      Path.goal_names names, ← spot_eq_goal, spot_of_place isTop]

/-- The path under which a walk returns a file leads there, if the system takes it. -/
theorem fileAt_walkedPath (proper : d.IsProper) (isTop : d.place root = .ok top)
    (isFile : d.file? (top ++ rest) = some file) (allowed : refusedPath? (walkedPath root rest) = none) :
    d.FileAt (walkedPath root rest) (top ++ rest) file := by
  have isEntry := file?_eq_some.mp isFile
  have names : ∀ c ∈ rest, IsEntryName c := fun c member =>
    (proper.isNamed isEntry c (List.mem_append_right _ member)).1
  refine ⟨?_, isFile⟩
  by_cases isHere : rest = []
  · rwa [isHere, walkedPath, List.isEmpty_nil, if_pos rfl, List.append_nil]
  · have isRoot : root ≠ "" := by
      rintro rfl
      cases isTop
    have normal := (Path.normal_components root).append names
    have isSpot := spot_walkedPath isTop names
    rw [walkedPath_below isRoot names isHere] at allowed isSpot ⊢
    rw [spot_ofComponents normal] at isSpot
    rw [proper.place_ofComponents normal (isSpot.symm ▸ isEntry), allowed, isSpot]

/-- What is picked from a list comes from places of its own if the list does. -/
theorem map_filterMap_sublist {α β γ : Type} {pick : α → Option β} {origin : β → γ} {key : α → γ}
    {items : List α} (same : ∀ a ∈ items, ∀ b, pick a = some b → origin b = key a) :
    ((items.filterMap pick).map origin).Sublist (items.map key) := by
  induction items with
  | nil => exact List.Sublist.refl _
  | cons a items ih =>
    obtain ⟨first, others⟩ := List.forall_mem_cons.mp same
    cases picked : pick a with
    | none =>
      rw [List.filterMap_cons_none picked]
      exact (ih others).cons _
    | some b =>
      rw [List.filterMap_cons_some picked, List.map_cons, List.map_cons, first b picked]
      exact (ih others).cons_cons _

/-- No two files that a walk returns are at one place. -/
theorem nodup_walk (proper : d.IsProper) {entered : String → Bool} {lenient : Bool} {found : List String}
    (isTop : d.place root = .ok top) (walked : d.walk root entered lenient = .ok found) :
    (found.map d.spot).Nodup := by
  have reached : ((d.met top entered).map (top ++ ·.1)).Sublist (d.entries.map (·.1)) := by
    refine map_filterMap_sublist fun held _ reached picked => ?_
    dsimp only at picked
    split at picked
    · next isBelow =>
      split_ifs at picked
      obtain rfl := Option.some.inj picked
      exact (eq_of_below? isBelow).symm
    · cases picked
  have shown : (((d.met top entered).filterMap (shown? root)).map d.spot).Sublist
      ((d.met top entered).map (top ++ ·.1)) := by
    refine map_filterMap_sublist ?_
    rintro ⟨rest, _ | file⟩ member path picked
    · cases picked
    · rw [shown?] at picked
      split_ifs at picked
      obtain rfl := Option.some.inj picked
      exact spot_walkedPath isTop fun c inRest =>
        (proper.named _ (mem_met.mp member).1 c (List.mem_append_right _ inRest)).1
  rw [walk_eq_of_place isTop walked]
  exact ((List.mergeSort_perm _ _).map d.spot).nodup_iff.mpr (proper.unique.sublist (shown.trans reached))

/-- A lenient walk comes to its end. -/
theorem exists_walk_lenient (d : Disk) (root : String) (entered : String → Bool) :
    ∃ found, d.walk root entered true = .ok found := by
  rw [walk]
  split
  · exact ⟨[], rfl⟩
  · split
    · next isStrict => cases isStrict
    · exact ⟨_, rfl⟩

/-- Nothing is found below a directory that is not there. -/
theorem generatedBelow_nowhere {refusal : Refusal} (nowhere : d.place root = .error refusal) :
    d.generatedBelow root = [] := by
  rw [generatedBelow, walk, nowhere]
  rfl

/-- **What is found below one directory** are the generated files there, each at a place of its own. -/
theorem generatedBelow_spec (proper : d.IsProper) (level : d.IsLevel) (root : String) :
    (∀ path ∈ d.generatedBelow root, ∃ file, d.FileAt path (d.spot path) file) ∧
      ((d.generatedBelow root).map d.spot).Nodup ∧
      ∀ place, place ∈ (d.generatedBelow root).map d.spot ↔ d.Reaches root place ∧ d.IsStamped place := by
  cases isTop : d.place root with
  | error refusal =>
    rw [generatedBelow_nowhere isTop]
    refine ⟨List.forall_mem_nil _, .nil, fun place => iff_of_false List.not_mem_nil ?_⟩
    rintro ⟨⟨top, rest, leads, -⟩, -⟩
    rw [isTop] at leads
    cases leads
  | ok top =>
    obtain ⟨found, walked⟩ := d.exists_walk_lenient root fun _ => true
    have isBelow : d.generatedBelow root = found.filter d.isGenerated := by
      rw [generatedBelow, walked]
    have members (path : String) :=
      @mem_walk_of_place d path proper root top isTop (fun _ => true) true found walked
    have reached : ∀ path ∈ d.generatedBelow root, ∃ rest file, path = walkedPath root rest ∧
        d.FileAt path (top ++ rest) file ∧ d.IsStamped (top ++ rest) := by
      intro path member
      rw [isBelow, List.mem_filter] at member
      obtain ⟨rest, file, isFile, -, allowed, rfl⟩ := (members _).mp member.1
      have isAt := fileAt_walkedPath proper isTop isFile allowed
      exact ⟨rest, file, rfl, isAt, (isGenerated_iff proper level isAt).mp member.2⟩
    refine ⟨fun path member => ?_, ?_, fun place => ⟨fun member => ?_, ?_⟩⟩
    · obtain ⟨rest, file, -, isAt, -⟩ := reached path member
      exact ⟨file, spot_of_place isAt.1 ▸ isAt⟩
    · rw [isBelow]
      exact (nodup_walk proper isTop walked).sublist (List.filter_sublist.map _)
    · obtain ⟨path, isPath, rfl⟩ := List.mem_map.mp member
      obtain ⟨rest, file, rfl, isAt, stamped⟩ := reached path isPath
      rw [← spot_of_place isAt.1]
      exact ⟨⟨top, rest, isTop, rfl, refusedPath?_of_place isAt.1⟩, stamped⟩
    · rintro ⟨⟨other, rest, leads, rfl, allowed⟩, stamped⟩
      obtain rfl : top = other := Except.ok.inj (isTop.symm.trans leads)
      obtain ⟨file, isFile⟩ := stamped.exists_file
      have isAt := fileAt_walkedPath proper isTop isFile allowed
      refine List.mem_map.mpr ⟨walkedPath root rest, ?_, (spot_of_place isAt.1).symm⟩
      rw [isBelow, List.mem_filter]
      exact ⟨(members _).mpr ⟨rest, file, isFile, List.all_eq_true.mpr fun _ _ => rfl, allowed, rfl⟩,
        (isGenerated_iff proper level isAt).mpr stamped⟩

/-! ### Several directories -/

variable {gone : List Place}

theorem IsLevel.withoutFiles (level : d.IsLevel) (gone : List Place) : (d.withoutFiles gone).IsLevel :=
  fun entry member => level entry (List.mem_filter.mp member).1

theorem isStamped_withoutFiles (files : d.AreFiles gone) :
    (d.withoutFiles gone).IsStamped place ↔ d.IsStamped place ∧ place ∉ gone := by
  simp only [IsStamped, file?_withoutFiles files]
  constructor
  · rintro ⟨name, file, isName, ⟨isFile, kept⟩, stamped⟩
    exact ⟨⟨name, file, isName, isFile, stamped⟩, kept⟩
  · rintro ⟨⟨name, file, isName, isFile, stamped⟩, kept⟩
    exact ⟨name, file, isName, ⟨isFile, kept⟩, stamped⟩

/-- A file that is left is reached as before: the root is given up only if it is the file itself. -/
theorem reaches_withoutFiles (proper : d.IsProper) (files : d.AreFiles gone)
    (isFile : d.file? place = some file) (kept : place ∉ gone) :
    (d.withoutFiles gone).Reaches root place ↔ d.Reaches root place := by
  refine exists₂_congr fun top rest => and_congr_left fun ⟨isBelow, _⟩ => ?_
  subst isBelow
  refine place_withoutFiles_iff files fun member => ?_
  by_cases isHere : rest = []
  · rw [isHere, List.append_nil] at kept
    exact kept member
  · obtain ⟨other, isOther⟩ := files top member
    have isDir := proper.toIsTree.isDirAt (file?_eq_some.mp isFile) (List.prefix_append top rest)
      fun same => isHere (List.self_eq_append_right.mp same)
    rw [isDirAt_iff, file?_eq_some.mp isOther] at isDir
    cases isDir

/-- **What is removed below several directories**, one after the other, are the generated files below any
of them. -/
theorem isRemoval_cleanEach (roots : List String) : ∀ {d : Disk}, d.IsProper → d.IsLevel →
    (d.cleanEach roots).IsRemoval d ∧
      ∀ place, place ∈ (d.cleanEach roots).gone d ↔
        (∃ root ∈ roots, d.Reaches root place) ∧ d.IsStamped place := by
  induction roots with
  | nil => exact fun _ _ => ⟨.nothing _, fun place => by simp [Cleaning.gone, cleanEach]⟩
  | cons root roots ih =>
    intro d proper level
    obtain ⟨leads, unique, below⟩ := generatedBelow_spec proper level root
    obtain ⟨first, all⟩ := isRemoval_removeEach leads unique
    have isWhole : d.cleanEach (root :: roots) = (d.removeEach (d.generatedBelow root)).followedBy
        ((d.removeEach (d.generatedBelow root)).disk.cleanEach roots) := by
      rw [cleanEach, first.failure]
      rfl
    rw [isWhole]
    generalize d.removeEach (d.generatedBelow root) = done at first all ⊢
    have isGone : done.gone d = (d.generatedBelow root).map d.spot := congrArg _ all
    rw [← isGone] at below
    obtain ⟨later, further⟩ := ih (first.disk ▸ proper.withoutFiles first.files)
      (first.disk ▸ level.withoutFiles _)
    refine ⟨first.followedBy later, fun place => ?_⟩
    rw [first.gone_followedBy, List.mem_append, further, below, first.disk, isStamped_withoutFiles first.files]
    constructor
    · rintro (⟨reaches, stamped⟩ | ⟨⟨other, member, reaches⟩, stamped, kept⟩)
      · exact ⟨⟨root, List.mem_cons_self, reaches⟩, stamped⟩
      · obtain ⟨file, isFile⟩ := stamped.exists_file
        rw [reaches_withoutFiles proper first.files isFile kept] at reaches
        exact ⟨⟨other, List.mem_cons_of_mem _ member, reaches⟩, stamped⟩
    · rintro ⟨⟨other, member, reaches⟩, stamped⟩
      by_cases kept : place ∈ done.gone d
      · exact .inl ((below place).mp kept)
      · obtain ⟨file, isFile⟩ := stamped.exists_file
        rcases List.mem_cons.mp member with rfl | later
        · exact absurd ((below place).mpr ⟨reaches, stamped⟩) kept
        · exact .inr ⟨⟨other, later, (reaches_withoutFiles proper first.files isFile kept).mpr reaches⟩,
            stamped, kept⟩

end Disk

/-! ### Files of runs -/

variable {config : Config} {d e : Disk} {decoration : Decoration} {surface : Surface} {u : GeneratedUnit}

theorem render_eq_append {v : Emit.CompilationUnit} {line : String} (header : v.header = [line]) :
    ∃ rest, v.render = "// " ++ line ++ "\n" ++ rest := by
  rw [Emit.CompilationUnit.render, Emit.CompilationUnit.lines, header]
  exact ⟨_, String.join_cons⟩

/-- The source of a unit starts with the marking line. -/
theorem isHeaded_of_synthesize (made : Forwarding.synthesize decoration (some surface) = .ok u) :
    IsHeaded u.source := by
  obtain ⟨rest, source⟩ : ∃ rest, u.source = Forwarding.headerLine ++ "\n" ++ rest := by
    have header : (Forwarding.unit decoration (Forwarding.overrides decoration surface)).header =
        [Forwarding.headerText] := rfl
    obtain ⟨rest, rendered⟩ := render_eq_append header
    refine ⟨rest, ?_⟩
    rw [eq_of_synthesize made]
    dsimp only
    rw [rendered, Forwarding.headerLine]
  have line : ∀ c ∈ Forwarding.headerLine.toList, (c != '\n') = true :=
    List.all_eq_true.mp (by decide : Forwarding.headerLine.toList.all (· != '\n') = true)
  have feed : "\n".toList = ['\n'] := by decide
  have first : u.source.toList.takeWhile (· != '\n') = Forwarding.headerLine.toList := by
    rw [source, String.append_assoc, String.toList_append, List.takeWhile_append_of_pos line,
      String.toList_append, feed, List.singleton_append, List.takeWhile_cons_of_neg (by decide),
      List.append_nil]
  rw [IsHeaded, first]
  decide

/-- The file of a unit is a source file. -/
theorem isSourceFile_fileName (made : Forwarding.synthesize decoration (some surface) = .ok u) :
    isSourceFile u.fileName = true := by
  have isName : u.fileName = decoration.className ++ "Impl.java" := by
    rw [eq_of_synthesize made]
    exact String.append_assoc
  have ending {other : String} (same : u.fileName = other) : "Impl.java".toList <:+ other.toList := by
    rw [← same, isName, String.toList_append]
    exact List.suffix_append _ _
  have isJava : Text.endsIn u.fileName ".java" = true := by
    rw [Text.endsIn, List.isSuffixOf_iff_suffix]
    exact .trans (by decide) (ending rfl)
  rw [isSourceFile, isJava, Bool.true_and, Bool.and_eq_true, bne_iff_ne, bne_iff_ne]
  exact ⟨fun same => absurd (ending same) (by decide), fun same => absurd (ending same) (by decide)⟩

/-- **The files that a run has written** were generated. -/
theorem Runs.stamped (wet : config.dryRun = false) (grounded : d.IsGrounded) {runId : String}
    {cancelled : Bool} {o : Outcome} (runs : Runs config runId cancelled d o) (tree : o.disk.IsTree) :
    ∀ r ∈ o.summary.results, r.failure = none →
      ∃ place file, o.disk.FileAt r.output place file ∧ o.disk.IsStamped place := by
  obtain ⟨products, making⟩ := runs.exists_making
  have holds := making.holdsLast wet grounded
  rw [making.results_eq]
  refine List.forall_mem_map.mpr fun p member succeeded => ?_
  obtain ⟨q, other, done, same, held⟩ := holds.exists_last member (by rw [Product.isDone, succeeded]; rfl)
  obtain ⟨decoration, surface, u, -, made, places⟩ := holds.made q other done
  obtain ⟨place, file, isAt, isText⟩ := Disk.fileAt_of_readFile held
  refine ⟨place, file, isAt, _, file, tree.base_eq isAt, isAt.2, ?_, ?_⟩
  · have leads := config.output.leadsBelow places.free d
    rw [← same, places.output, Output.pathOf, Path.base_ofComponents (leads.normal.concat leads.isName)]
    exact isSourceFile_fileName made
  · rw [isText, places.source]
    exact isHeaded_of_synthesize made

/-! ### Cleaning -/

/-- The place lies below one of the listed directories, and the system takes its path. -/
def Disk.LiesBelow (d : Disk) (patterns : List String) (place : Place) : Prop :=
  ∃ text ∈ patterns, d.Reaches (Pattern.ofText text).base place

theorem Disk.isRemoval_clean (proper : d.IsProper) (level : d.IsLevel) (patterns : List String) :
    (d.clean patterns).IsRemoval d ∧
      ∀ place, place ∈ (d.clean patterns).gone d ↔ d.LiesBelow patterns place ∧ d.IsStamped place := by
  obtain ⟨removal, members⟩ :=
    isRemoval_cleanEach (patterns.map fun text => (Pattern.ofText text).base) proper level
  refine ⟨⟨?_, removal.leads, removal.unique, removal.disk⟩, fun place => ?_⟩
  · rw [clean, removal.failure]
    rfl
  · refine (members place).trans (and_congr_left fun _ => ⟨?_, ?_⟩)
    · rintro ⟨_, member, reaches⟩
      obtain ⟨text, isText, rfl⟩ := List.mem_map.mp member
      exact ⟨text, isText, reaches⟩
    · rintro ⟨text, isText, reaches⟩
      exact ⟨_, List.mem_map_of_mem isText, reaches⟩

theorem Disk.liesBelow_withoutFiles (proper : d.IsProper) {gone : List Place} (files : d.AreFiles gone)
    {patterns : List String} {place : Place} {file : File} (isFile : d.file? place = some file)
    (kept : place ∉ gone) : (d.withoutFiles gone).LiesBelow patterns place ↔ d.LiesBelow patterns place :=
  exists_congr fun _ => and_congr_right fun _ => reaches_withoutFiles proper files isFile kept

/-- Where everything that was generated is gone there is nothing to clean. -/
theorem Disk.clean_cleaned (proper : d.IsProper) (level : d.IsLevel) (patterns : List String) :
    (d.clean patterns).disk.clean patterns = ⟨[], none, (d.clean patterns).disk⟩ := by
  obtain ⟨removal, members⟩ := isRemoval_clean proper level patterns
  generalize d.clean patterns = done at removal members ⊢
  obtain ⟨again, members'⟩ := isRemoval_clean (removal.disk ▸ proper.withoutFiles removal.files)
    (removal.disk ▸ level.withoutFiles _) patterns
  have nothing : (done.disk.clean patterns).gone done.disk = [] := by
    refine List.eq_nil_iff_forall_not_mem.mpr fun place member => ?_
    rw [members', removal.disk, isStamped_withoutFiles removal.files] at member
    obtain ⟨lies, stamped, kept⟩ := member
    obtain ⟨file, isFile⟩ := stamped.exists_file
    rw [liesBelow_withoutFiles proper removal.files isFile kept] at lies
    exact kept ((members place).mpr ⟨lies, stamped⟩)
  have same := again.disk
  rw [nothing, withoutFiles_nil] at same
  have isDone := again.failure
  have none_ : (done.disk.clean patterns).removed = [] := List.map_eq_nil_iff.mp nothing
  generalize done.disk.clean patterns = second at none_ isDone same
  obtain ⟨removed, failure, disk⟩ := second
  obtain rfl : removed = [] := none_
  obtain rfl : failure = none := isDone
  obtain rfl : disk = done.disk := same
  rfl

/-- **Cleaning removes what was generated.**

* It succeeds. The paths that it returns lead to files, no two to the same one, and these files are gone
  while everything else is as before.
* They are the generated files below the listed directories, as far as the system takes their paths.
* A second cleaning removes nothing.
* What a run has written before is gone, if it lies below one of the directories. -/
theorem Disk.clean_exact (proper : d.IsProper) (level : d.IsLevel) (patterns : List String) :
    let done := d.clean patterns
    done.IsRemoval d ∧
    (∀ place, place ∈ done.gone d ↔ d.LiesBelow patterns place ∧ d.IsStamped place) ∧
    done.disk.clean patterns = ⟨[], none, done.disk⟩ ∧
    ∀ config runId cancelled before o, config.dryRun = false → before.IsGrounded →
      Runs config runId cancelled before o → o.disk = d →
        ∀ r ∈ o.summary.results, r.failure = none → ∃ place file, d.FileAt r.output place file ∧
          (d.LiesBelow patterns place → place ∈ done.gone d) := by
  obtain ⟨removal, members⟩ := isRemoval_clean proper level patterns
  refine ⟨removal, members, clean_cleaned proper level patterns, ?_⟩
  rintro config runId cancelled before o wet grounded runs rfl r isResult succeeded
  obtain ⟨place, file, isAt, stamped⟩ := runs.stamped wet grounded proper.toIsTree r isResult succeeded
  exact ⟨place, file, isAt, fun lies => (members place).mpr ⟨lies, stamped⟩⟩

/-- A generated file, and one written by hand. -/
def sweptDisk : Disk :=
  (SourceLoader.diskOf [(["g"], "A", "// Code generated by decorator. DO NOT EDIT.\n")]).put ["g", "B.java"]
    (.file ⟨.text "class B \x7b\x7d", .given 0⟩)

theorem proper_swept : sweptDisk.IsProper ∧ sweptDisk.IsLevel := by
  decide

theorem isStamped_swept : sweptDisk.IsStamped ["g", "A.java"] :=
  ⟨"A.java", ⟨.text "// Code generated by decorator. DO NOT EDIT.\n", .given 0⟩, rfl, by decide,
    by decide, by decide⟩

theorem clean_exact_swept : sweptDisk.IsProper ∧ sweptDisk.IsLevel ∧
    (sweptDisk.clean ["g/...", "missing", "./g"]).IsRemoval sweptDisk ∧
    ["g", "A.java"] ∈ (sweptDisk.clean ["g/...", "missing", "./g"]).gone sweptDisk ∧
    ["g", "B.java"] ∉ (sweptDisk.clean ["g/...", "missing", "./g"]).gone sweptDisk := by
  obtain ⟨proper, level⟩ := proper_swept
  obtain ⟨removal, members, -⟩ := Disk.clean_exact proper level ["g/...", "missing", "./g"]
  refine ⟨proper, level, removal, (members _).mpr ⟨⟨"g/...", List.mem_cons_self, ["g"], ["A.java"],
    eq_ok_of_toOption (by decide), rfl, by decide⟩, isStamped_swept⟩, fun gone => ?_⟩
  obtain ⟨-, name, file, -, isFile, -, headed⟩ := (members _).mp gone
  have byHand : sweptDisk.file? ["g", "B.java"] = some ⟨.text "class B \x7b\x7d", .given 0⟩ := by decide
  obtain rfl := Option.some.inj (byHand.symm.trans isFile)
  exact absurd headed (by decide)

/-! ### Directories whose paths the system does not take -/

/-- Nothing is removed below a directory whose path is refused. -/
theorem Disk.clean_of_refused {text : String} {refusal : Refusal}
    (refused : refusedPath? (Pattern.ofText text).base = some refusal) : d.clean [text] = ⟨[], none, d⟩ := by
  have nowhere : d.place (Pattern.ofText text).base = .error refusal := by rw [Disk.place, refused]
  rw [clean, List.map_singleton, cleanEach, generatedBelow_nowhere nowhere]
  rfl

/-- Points in front of a relative path change nothing about where it leads. -/
theorem Disk.spot_times_here (d : Disk) {path : String} (relative : Path.isAbsolute path = false) (n : Nat) :
    Path.isAbsolute (Text.times n "./" ++ path) = false ∧
      d.spot (Text.times n "./" ++ path) = d.spot path := by
  induction n with
  | zero => exact ⟨relative, rfl⟩
  | succ n ih =>
    obtain ⟨relative', same⟩ := ih
    have spelled : Text.times (n + 1) "./" ++ path = "." ++ "/" ++ (Text.times n "./" ++ path) := by
      rw [Text.times_succ, String.append_assoc]
      rfl
    have still : Path.isAbsolute ("." ++ "/" ++ (Text.times n "./" ++ path)) = false :=
      (Path.isAbsolute_append (by decide) _).trans (by decide)
    rw [spelled]
    refine ⟨still, ?_⟩
    rw [← same, spot, spot, start, start, still, relative', Path.written_append, Path.goal_append]
    rfl

/-- The directory `g`, in more characters than the system takes. -/
def longSpelling : String :=
  Text.times 2100 "./" ++ "g"

theorem pattern_longSpelling : Pattern.ofText longSpelling = ⟨longSpelling, false⟩ := by
  have last (front : List Char) {c : Char} (same : front ++ [c] = longSpelling.toList) : c = 'g' := by
    rw [longSpelling, String.toList_append] at same
    exact List.singleton_inj.mp (List.append_inj' same rfl).2
  have notTree : ¬Text.endsIn longSpelling "/..." = true := by
    rw [Text.endsIn, List.isSuffixOf_iff_suffix]
    rintro ⟨front, same⟩
    exact absurd (last (front ++ "/..".toList) ((List.append_assoc ..).trans same)) (by decide)
  have notAll : longSpelling ≠ "..." := fun same =>
    absurd (last "..".toList (congrArg String.toList same).symm) (by decide)
  rw [Pattern.ofText, if_neg notTree, if_neg notAll]

theorem refused_longSpelling : Disk.refusedPath? longSpelling = some .nameTooLong := by
  have size : longSpelling.utf8ByteSize = 4201 := by
    rw [longSpelling, String.utf8ByteSize_append, Text.utf8ByteSize_times]
    rfl
  have noNull : ¬longSpelling.toList.contains '\x00' = true := by
    rw [List.contains_iff_mem, longSpelling, String.toList_append, List.mem_append, not_or]
    exact ⟨fun member => absurd (Text.mem_of_mem_times member) (by decide), by decide⟩
  have some_ : ¬longSpelling.isEmpty = true := by
    rw [String.isEmpty_iff_utf8ByteSize_eq_zero, size]
    decide
  rw [Disk.refusedPath?, if_neg some_, if_neg noNull, if_pos (by rw [size]; decide)]

/-- **A directory with a path that is too long** is left as it is, although it holds a generated file. -/
theorem long_spelling_left : sweptDisk.IsProper ∧ sweptDisk.IsLevel ∧
    sweptDisk.spot (Pattern.ofText longSpelling).base = ["g"] ∧ sweptDisk.isDirAt ["g"] = true ∧
    sweptDisk.IsStamped (["g"] ++ ["A.java"]) ∧
    (sweptDisk.clean [longSpelling]).removed = [] ∧ (sweptDisk.clean [longSpelling]).disk = sweptDisk := by
  have refused : Disk.refusedPath? (Pattern.ofText longSpelling).base = some .nameTooLong := by
    rw [pattern_longSpelling, refused_longSpelling]
  refine ⟨proper_swept.1, proper_swept.2, ?_, by decide, isStamped_swept, ?_, ?_⟩
  · rw [pattern_longSpelling]
    exact (sweptDisk.spot_times_here (by decide) 2100).2.trans (by decide)
  · rw [Disk.clean_of_refused refused]
  · rw [Disk.clean_of_refused refused]

end Forwarder
