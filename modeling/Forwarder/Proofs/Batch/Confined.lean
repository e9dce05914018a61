/-
**A run writes only where it should.** The names in a declaration are identifiers, so the path of its unit
leads straight down from the output directory. Whatever happens to a run, the files at all other places stay
as they are, and nothing remains under a temporary name.

* `Config.unitPath`, `Config.IsTarget` — the paths of units, and the places that they name.
* `Decoration.isEntryName_route`, `spot_unitPath` — these places are below the output directory.
* `Config.Keeps` — a disk holds the same as before at all other places.
* `Keeps.write` — writing a unit in steps keeps to this; **`Keeps.leaves`** — so does writing all of them.
* `Runs.mayLeave` — what a run that nothing disturbs leaves is among what may be left.
* **`Runs.confined`** — what a run may leave, whatever disturbs it.
-/

import Forwarder.Batch.Disturbance
import Forwarder.Proofs.Batch.Contents
import Forwarder.Proofs.Files.Steps

namespace Forwarder

open Disk (Dug Grown)
open Forwarder.Path (IsEntryName ofComponents)
open Source (isIdentifier)

variable {config : Config} {d e : Disk} {out : Output} {u : GeneratedUnit} {file text : String}
  {decoration : Decoration} {place : Place}

/-! ### Places of units -/

theorem isEntryName_of_isIdentifier {name : String} (named : isIdentifier name = true) : IsEntryName name := by
  have absent {c : Char} (noPart : Source.isIdentPart c = false) : c ∉ name.toList := fun member => by
    rw [Source.isIdentPart_of_isIdentifier named c member] at noPart
    cases noPart
  have noPoint : '.' ∉ name.toList := absent (by decide)
  refine ⟨?_, ?_, ?_, absent (by decide)⟩
  · rintro rfl
    exact Source.ne_nil_of_isIdentifier named rfl
  · rintro rfl
    exact noPoint (by decide)
  · rintro rfl
    exact noPoint (by decide)

namespace Decoration

/-- The names that lead from the output directory to the unit of the declaration. -/
def route (decoration : Decoration) : List String :=
  "decorator" :: Text.split '.' decoration.packageName ++ [decoration.className ++ "Impl.java"]

theorem split_packageName (accepted : read file text = .present decoration) :
    ∀ part ∈ Text.split '.' decoration.packageName, isIdentifier part = true := by
  obtain ⟨head, tail, isPackage, named⟩ := package_of_read accepted
  have free : ∀ part ∈ head :: tail, '.' ∉ part.toList := fun part member point =>
    absurd (Source.isIdentPart_of_isIdentifier (named part member) '.' point) (by decide)
  have split : Text.split '.' (Text.join "." (head :: tail)) = head :: tail :=
    Text.split_join free (List.cons_ne_nil _ _)
  rwa [isPackage, split]

/-- The names lead through the folders of the unit to its file. -/
theorem route_eq (accepted : read file text = .present decoration) :
    decoration.blank.folders ++ [decoration.blank.fileName] = decoration.route := by
  have parts := split_packageName accepted
  have names : ∀ part ∈ "decorator" :: Text.split '.' decoration.packageName, IsEntryName part :=
    List.forall_mem_cons.mpr ⟨by decide, fun part member => isEntryName_of_isIdentifier (parts part member)⟩
  have split : Text.split '.' decoration.blank.packageName =
      "decorator" :: Text.split '.' decoration.packageName :=
    Text.split_append '.' "decorator" decoration.packageName
  have written : Path.written (Text.join "/" ("decorator" :: Text.split '.' decoration.packageName)) =
      "decorator" :: Text.split '.' decoration.packageName :=
    Text.split_join (fun part member => (names part member).free) (List.cons_ne_nil _ _)
  have isFile : decoration.blank.fileName = decoration.className ++ "Impl.java" :=
    String.append_assoc
  have kept := List.filter_eq_self.mpr fun part member => bne_iff_ne.mpr (names part member).some_
  rw [GeneratedUnit.folders, split, written, kept, isFile, route]

theorem isEntryName_route (accepted : read file text = .present decoration) :
    ∀ name ∈ decoration.route, IsEntryName name := by
  have free : '/' ∉ decoration.blank.className.toList := by
    rw [blank, implName, String.toList_append, List.mem_append, not_or]
    exact ⟨(isPlaceable_of_read accepted).className, by decide⟩
  rw [← route_eq accepted]
  exact List.forall_mem_append.mpr ⟨GeneratedUnit.isEntryName_folders,
    List.forall_mem_singleton.mpr (GeneratedUnit.isEntryName_fileName free)⟩

/-- The file of a unit does not have a temporary name. -/
theorem not_temporary (accepted : read file text = .present decoration) :
    ¬Text.startsBy (decoration.className ++ "Impl.java") ".tmp-" = true := by
  intro temporary
  have named := (worded_of_read accepted).className
  obtain ⟨c, others, chars⟩ := List.exists_cons_of_ne_nil (Source.ne_nil_of_isIdentifier named)
  rw [Text.startsBy, List.isPrefixOf_iff_prefix, String.toList_append, chars] at temporary
  obtain rfl : '.' = c := (List.cons_prefix_cons.mp temporary).1
  have part := Source.isIdentPart_of_isIdentifier named '.' (chars ▸ List.mem_cons_self)
  exact absurd part (by decide)

end Decoration

/-- The path of the unit of a declaration. -/
def Config.unitPath (config : Config) (decoration : Decoration) : String :=
  Path.clean config.outputDir ++ "/" ++ Text.join "/" decoration.route

/-- One of the scanned files holds the declaration. -/
def Config.Declares (config : Config) (d : Disk) (decoration : Decoration) : Prop :=
  ∃ files path text, d.scan config.sourceDirs = .ok files ∧ path ∈ files ∧ d.textOf path = .ok text ∧
    Decoration.read path text = .present decoration

/-- The place is that of the unit of such a declaration. -/
def Config.IsTarget (config : Config) (d : Disk) (place : Place) : Prop :=
  ∃ decoration, config.Declares d decoration ∧ place = d.spot (config.unitPath decoration)

/-- The path of a unit names a place below the output directory. -/
theorem spot_unitPath (accepted : Decoration.read file text = .present decoration) :
    d.spot (config.unitPath decoration) = d.spot config.outputDir ++ decoration.route := by
  have names := Decoration.isEntryName_route accepted
  have written : Path.written (Text.join "/" decoration.route) = decoration.route :=
    Text.split_join (fun name member => (names name member).free) (List.cons_ne_nil _ _)
  have isRoot := Path.clean_ne_empty config.outputDir
  have sameStart : d.start (config.unitPath decoration) = d.start (Path.clean config.outputDir) := by
    rw [Disk.start, Disk.start, Config.unitPath, String.append_assoc, Path.isAbsolute_append isRoot]
  rw [Disk.spot, sameStart, Config.unitPath, Path.written_append, Path.goal_append, written,
    Path.goal_names names, ← d.spot_clean config.outputDir]
  rfl

/-- The places of units are not those of temporary files. -/
theorem not_isTarget_of_temporary {name : String} (temporary : Text.startsBy name ".tmp-" = true) :
    ¬config.IsTarget d (place ++ [name]) := by
  rintro ⟨decoration, ⟨_, _, _, -, -, -, accepted⟩, isPlace⟩
  rw [spot_unitPath accepted, Decoration.route, ← List.append_assoc] at isPlace
  obtain rfl := List.singleton_inj.mp (List.append_inj' isPlace rfl).2
  exact Decoration.not_temporary accepted temporary

/-- A unit is written to the place that its path names. -/
theorem target_eq_spot (accepted : Decoration.read file text = .present decoration) {surface : Surface}
    (made : Forwarding.synthesize decoration (some surface) = .ok u) :
    config.output.target d u = d.spot (config.unitPath decoration) := by
  rw [spot_unitPath accepted, ← Decoration.route_eq accepted, Output.target, eq_of_synthesize made,
    List.append_assoc]
  rfl

/-! ### Writing a unit -/

namespace Output

variable {t : Treatment}

/-- What writing a unit in steps leaves: directories above its place, or its source at its place. -/
theorem writeInSteps_cases (out : Output) (free : '/' ∉ u.className.toList) (grounded : e.IsGrounded) :
    Dug (· <+: e.spot out.root ++ u.folders) e (out.writeInSteps t e u) ∨
      e.WrittenAt (out.target e u) u.source (out.writeInSteps t e u) := by
  rcases place_exact out free with ⟨failure, unplaced⟩ | placed
  · rw [writeInSteps, unplaced]
    exact .inl (.refl _ e)
  · rw [writeInSteps, placed]
    dsimp only
    split_ifs with dry
    · exact .inl (.refl _ e)
    · have leads := leadsBelow out free e
      rw [target, ← goal_front]
      rcases Disk.writeInSteps_cases leads.normal leads.isName grounded u.source with
        ⟨-, dug, -⟩ | ⟨fits, done⟩
      · exact .inl dug
      · rw [pathOf, done]
        exact .inr (fits.writtenAt leads.normal grounded u.source)

/-- Writing a unit at once is writing it in steps. -/
theorem exists_writeInSteps (out : Output) (free : '/' ∉ u.className.toList) (grounded : e.IsGrounded) :
    ∃ t, out.writeInSteps t e u = (out.write e u).disk := by
  rcases place_exact out free with ⟨failure, unplaced⟩ | placed
  · exact ⟨.fair "", by rw [writeInSteps, write, unplaced]⟩
  · have leads := leadsBelow out free e
    obtain ⟨t, same⟩ := Disk.exists_writeInSteps leads.normal leads.isName grounded u.source
    refine ⟨t, ?_⟩
    rw [writeInSteps, write, placed]
    dsimp only
    split_ifs with dry
    · rfl
    · rw [pathOf, same]
      generalize e.write (ofComponents (Path.isAbsolute out.root) (out.front u ++ [u.fileName]))
        u.source = outcome
      obtain ⟨result, after⟩ := outcome
      cases result <;> rfl

end Output

/-! ### Whole runs -/

/-- Below the output directory there is something new, and at all places but those of units there are the
same files. -/
structure Config.Keeps (config : Config) (d e : Disk) : Prop where
  grown : Grown (d.spot config.output.root) d e
  files : ∀ place, ¬config.IsTarget d place → e.file? place = d.file? place

namespace Config.Keeps

theorem refl (config : Config) (d : Disk) : config.Keeps d d :=
  ⟨.refl _ d, fun _ _ => rfl⟩

/-- **One unit**, written as far as the system lets it. -/
theorem write (keeps : config.Keeps d e) (grounded : d.IsGrounded) (declares : config.Declares d decoration)
    {surface : Surface} (made : Forwarding.synthesize decoration (some surface) = .ok u) (t : Treatment) :
    config.Keeps d (config.output.writeInSteps t e u) := by
  have ⟨_, _, _, _, _, _, accepted⟩ := declares
  have isTarget : config.IsTarget d (config.output.target e u) := by
    rw [Output.target_of_cwd keeps.grown.cwd, target_eq_spot accepted made]
    exact ⟨decoration, declares, rfl⟩
  have free := slash_not_mem_of_synthesize (Decoration.isPlaceable_of_read accepted) made
  have grounded' := keeps.grown.isGrounded grounded
  have sameSpot : e.spot config.output.root = d.spot config.output.root := by
    simp only [Disk.spot, Disk.start, keeps.grown.cwd]
  have leads := config.output.leadsBelow free e
  have isFolder {above : Place} (isAbove : above <+: e.spot config.output.root ++ u.folders) :
      IsFolderPlace (d.spot config.output.root) above := by
    rw [← sameSpot]
    exact leads.isFolder (Output.goal_front config.output u e ▸ isAbove)
  rcases config.output.writeInSteps_cases free grounded' with dug | written
  · refine ⟨keeps.grown.trans (.of_dug dug fun above => isFolder), fun place away => ?_⟩
    exact (dug.file? place).trans (keeps.files place away)
  · have isUnit : IsUnitPlace (d.spot config.output.root) (config.output.target e u) := by
      rw [← sameSpot, Output.target, ← Output.goal_front]
      exact leads.isUnit
    refine ⟨keeps.grown.trans (.of_written written isUnit fun above isAbove other => ?_), fun place away => ?_⟩
    · exact isFolder ((List.prefix_concat_iff.mp isAbove).resolve_left other)
    · rw [← keeps.files place away]
      refine written.file? ?_
      rintro rfl
      exact away isTarget

/-- **All units**, one after the other. -/
theorem leaves (grounded : d.IsGrounded) {declared : List (String × Attempt Decoration)} {f : Disk}
    (leaves : Leaves config.output e declared f)
    (each : ∀ entry ∈ declared, ∀ decoration, entry.2 = .present decoration → config.Declares d decoration)
    (keeps : config.Keeps d e) : config.Keeps d f := by
  induction leaves with
  | ended => exact keeps
  | passed others ih => exact ih (List.forall_mem_cons.mp each).2 keeps
  | made t isUnit others ih =>
    obtain ⟨first, rest⟩ := List.forall_mem_cons.mp each
    exact ih rest (keeps.write grounded (first _ rfl) isUnit t)

end Config.Keeps

/-! ### Runs that nothing disturbs -/

/-- What making units at once leaves, making them in steps may leave. -/
theorem leaves_generateAll (out : Output) (grounded : d.IsGrounded) (declared : List (String × Attempt Decoration))
    (each : ∀ entry ∈ declared, ∀ decoration, entry.2 = .present decoration →
      ∃ file text, Decoration.read file text = .present decoration) :
    ∀ shop : Workshop, Grown (d.spot out.root) d shop.disk →
      Leaves out shop.disk declared (generateAll out shop declared).shop.disk := by
  induction declared with
  | nil => exact fun shop _ => .ended _ _
  | cons entry declared ih =>
    intro shop grown
    obtain ⟨first, others⟩ := List.forall_mem_cons.mp each
    obtain ⟨path, attempt⟩ := entry
    cases attempt with
    | empty => exact .passed (ih others shop grown)
    | failed failure => exact .passed (ih others shop grown)
    | present decoration =>
      obtain ⟨file, text, accepted⟩ := first decoration rfl
      have placeable := Decoration.isPlaceable_of_read accepted
      have later := ih others _ (grown_generate grounded grown placeable)
      rw [generateAll]
      rcases generate_cases out shop decoration with ⟨-, nothing⟩ | ⟨u, surface, -, made, written⟩
      · rw [nothing.disk] at later
        exact .passed later
      · have free := slash_not_mem_of_synthesize placeable made
        obtain ⟨t, same⟩ := Output.exists_writeInSteps out free (grown.isGrounded grounded)
        rw [written.disk, ← same] at later
        exact .made t made later

/-- A file that holds a declaration. -/
theorem read_of_extractionOf {path : String} (present : d.extractionOf path = .present decoration) :
    ∃ text, d.textOf path = .ok text ∧ Decoration.read path text = .present decoration := by
  rw [Disk.extractionOf] at present
  split at present
  · cases present
  · next text isText =>
    split at present
    · exact ⟨text, isText, present⟩
    · cases present

/-- **What a run leaves that nothing disturbs** is among what may be left. -/
theorem Runs.mayLeave (grounded : d.IsGrounded) {runId : String} {cancelled : Bool} {o : Outcome}
    (runs : Runs config runId cancelled d o) : MayLeave config d o.disk := by
  unfold Runs runScan at runs
  cases scanned : d.scan config.sourceDirs with
  | error failure =>
    rw [scanned] at runs
    obtain rfl : o = _ := runs
    exact .nothing
  | ok files =>
    rw [scanned] at runs
    cases cancelled with
    | true =>
      obtain rfl : o = _ := runs
      exact .nothing
    | false =>
      obtain ⟨extraction, yields, rfl⟩ : RunsOn config runId d files o := runs
      have each : ∀ entry ∈ extraction.declared, entry.1 ∈ files ∧ d.extractionOf entry.1 = entry.2 := by
        rw [yields.declared_eq.1]
        exact List.forall_mem_map.mpr fun path member => ⟨member, rfl⟩
      have read : ∀ entry ∈ extraction.declared, ∀ decoration, entry.2 = .present decoration →
          ∃ file text, Decoration.read file text = .present decoration := fun entry member decoration present => by
        obtain ⟨text, -, accepted⟩ := read_of_extractionOf ((each entry member).2.trans present)
        exact ⟨_, text, accepted⟩
      rw [runScanned, runDeclared]
      cases stopping? config extraction.declared with
      | some stop => exact .nothing
      | none =>
        refine .units scanned (fun entry member => ⟨(each entry member).1, fun decoration present => ?_⟩)
          (leaves_generateAll ⟨config.outputDir, config.dryRun⟩ grounded extraction.declared read
            ⟨.sharing extraction.reader config.descriptorDirs config.sourcePath, d⟩ (.refl _ d))
        rw [extract_eq, (each entry member).2, present]

/-- **A run writes only where it should.**

* What a run leaves is among what it may leave when it is called off at any time, when files cannot be read or
  types not found, and when the system refuses any steps of the writing of units.
* Whatever is left, all files are as before but for those at the places of units: at any other place there is
  the same file or none. Nothing remains under a temporary name.
* The places of units are those which their paths name, strictly below the output directory. -/
theorem Runs.confined (grounded : d.IsGrounded) :
    (∀ runId cancelled o, Runs config runId cancelled d o → MayLeave config d o.disk) ∧
    (∀ e, MayLeave config d e →
      (∀ place, ¬config.IsTarget d place → e.file? place = d.file? place) ∧
      ∀ place name, Text.startsBy name ".tmp-" = true →
        e.file? (place ++ [name]) = d.file? (place ++ [name])) ∧
    ∀ place, config.IsTarget d place → ∃ below, place = d.spot config.outputDir ++ below ∧ below ≠ [] ∧
      ∀ name ∈ below, IsEntryName name := by
  refine ⟨fun runId cancelled o runs => runs.mayLeave grounded, fun e left => ?_, ?_⟩
  · have keeps : config.Keeps d e := by
      cases left with
      | nothing => exact .refl config d
      | units scanned extracted leaves =>
        refine .leaves grounded leaves (fun entry member decoration present => ?_) (.refl config d)
        obtain ⟨isFile, extracted⟩ := extracted entry member
        have isExtracted := extracted decoration present
        rw [extract_eq] at isExtracted
        obtain ⟨text, isText, accepted⟩ := read_of_extractionOf isExtracted
        exact ⟨_, _, text, scanned, isFile, isText, accepted⟩
    exact ⟨keeps.files, fun place name temporary => keeps.files _ (not_isTarget_of_temporary temporary)⟩
  · rintro place ⟨decoration, ⟨_, _, _, -, -, -, accepted⟩, rfl⟩
    exact ⟨decoration.route, spot_unitPath accepted, List.cons_ne_nil _ _,
      Decoration.isEntryName_route accepted⟩

/-- A run that writes two units leaves everything else alone. -/
theorem confined_pair :
    let config := pairConfig "gen" "q.jar"
    let e := (run config "" false pairDisk).disk
    pairDisk.IsGrounded ∧ MayLeave config pairDisk e ∧
      (∀ place, ¬config.IsTarget pairDisk place → e.file? place = pairDisk.file? place) ∧
      (∀ place name, Text.startsBy name ".tmp-" = true →
        e.file? (place ++ [name]) = pairDisk.file? (place ++ [name])) ∧
      ∀ place, config.IsTarget pairDisk place → ∃ below, place = ["gen"] ++ below ∧ below ≠ [] ∧
        ∀ name ∈ below, IsEntryName name := by
  intro config e
  have grounded : pairDisk.IsGrounded := separate_pair.tree.isGrounded
  obtain ⟨mayLeave, left, below⟩ : _ ∧ _ ∧ ∀ place, config.IsTarget pairDisk place → _ :=
    Runs.confined grounded
  have run_ := mayLeave _ _ _ (runs_run config "" false pairDisk)
  obtain ⟨others, temporary⟩ := left e run_
  have root : pairDisk.spot config.outputDir = ["gen"] := by decide
  rw [root] at below
  exact ⟨grounded, run_, others, temporary, below⟩

end Forwarder
