/-
**A dry run predicts the real one.** It makes the same units without writing them, so it tells of the files
what a real run tells, as long as the real run can write what it makes and nothing that it writes is looked
at on the way to a type.

* `Config.dry`, `Config.wet` — the same run, without writing and with it.
* `Disk.Writes` — texts are written one after the other.
* `writtenOf`, `shownAt` — what a run writes, and how it is shown.
* `generate_predicted`, `generateAll_predicted` — one unit, and all units, made by both runs.
* **`Runs.dry_predicts`** — what a dry run tells of the real one.
* `detour_not_predicted` — a dry run does not make the directory on a detour to an archive.
-/

import Forwarder.Proofs.Batch.Products

namespace Forwarder

open Disk (Grown)

variable {config : Config} {d : Disk}

/-! ### What is written and shown -/

/-- The same run, with its units shown. -/
def Config.dry (config : Config) : Config :=
  { config with dryRun := true }

/-- The same run, with its units written. -/
def Config.wet (config : Config) : Config :=
  { config with dryRun := false }

theorem Config.IsSeparate.dry (separate : config.IsSeparate d) : config.dry.IsSeparate d :=
  ⟨separate.tree, separate.apart, separate.upfront⟩

theorem Config.IsSeparate.wet (separate : config.IsSeparate d) : config.wet.IsSeparate d :=
  ⟨separate.tree, separate.apart, separate.upfront⟩

theorem Workshop.Faithful.dry {shop : Workshop} (faithful : shop.Faithful config d) :
    shop.Faithful config.dry d :=
  ⟨faithful.loader, faithful.disk⟩

theorem Workshop.Faithful.wet {shop : Workshop} (faithful : shop.Faithful config d) :
    shop.Faithful config.wet d :=
  ⟨faithful.loader, faithful.disk⟩

/-- The texts can be written to their paths, one after the other, and this is the disk after them. -/
def Disk.Writes (d : Disk) : List (String × String) → Disk → Prop
  | [], e => e = d
  | (path, text) :: rest, e => (d.write path text).1 = .ok () ∧ (d.write path text).2.Writes rest e

theorem Disk.Writes.append {d e f : Disk} {texts others : List (String × String)}
    (first : d.Writes texts e) (second : e.Writes others f) : d.Writes (texts ++ others) f := by
  induction texts generalizing d with
  | nil =>
    obtain rfl : e = d := first
    exact second
  | cons entry texts ih =>
    obtain ⟨done, rest⟩ := first
    exact ⟨done, ih rest⟩

/-- The paths and the texts of the units that were written or shown. -/
def writtenOf (products : List Product) : List (String × String) :=
  (products.filter (·.isDone)).map fun p => (p.result.output, p.source)

theorem writtenOf_cons (p : Product) (products : List Product) :
    writtenOf (p :: products) = writtenOf [p] ++ writtenOf products := by
  rw [writtenOf, writtenOf, writtenOf, ← List.map_append, ← List.filter_append, List.singleton_append]

/-- A text behind a line with its path. -/
def shownAt (entry : String × String) : String :=
  "// " ++ entry.1 ++ "\n" ++ entry.2

/-- What is shown of one unit and of those after it. -/
theorem shown_after (result : FileResult) (printed : String) (rest : Generation) :
    Event.shown (rest.after result (Event.ofPreview printed)).events =
      printed ++ Event.shown rest.events := by
  have isResult : (Event.ofResult result).inPreview = "" := by
    rw [Event.ofResult]
    split <;> rfl
  rw [Event.shown, Event.shown, Generation.after, Event.ofPreview]
  split
  · next nothing =>
    rw [String.isEmpty_iff.mp nothing, List.nil_append, List.map_cons, isResult, String.join_cons]
  · rw [List.singleton_append, List.map_cons, List.map_cons, isResult, String.join_cons,
      String.join_cons, String.empty_append]
    rfl

/-! ### One unit -/

/-- A declaration that comes to no unit fails in the same way in both runs. -/
theorem outputAt_of_none {decoration : Decoration} (nothing : d.unitAt? config decoration = none)
    (now later : Nat) :
    d.outputAt config.dry now decoration = d.outputAt config.wet later decoration := by
  unfold Disk.unitAt? at nothing
  simp only [Disk.outputAt, Config.dry, Config.wet]
  cases loaded : TypeLoader.atFirst d config.descriptorDirs config.sourcePath decoration.decorated with
  | error failure => rfl
  | ok surface =>
    rw [loaded] at nothing
    dsimp only at nothing ⊢
    cases made : Forwarding.synthesize decoration (some surface) with
    | error failure => rfl
    | ok u =>
      rw [made] at nothing
      cases nothing

/-- What both runs come to for one declaration, whose product in the real run is `p`. -/
structure Made.Predicted (p : Product) (dry wet : Workshop) (shown written : Made) : Prop where
  path : shown.path = written.path
  printed : shown.printed = String.join ((writtenOf [p]).map shownAt)
  disk : shown.shop.disk = dry.disk
  writes : wet.disk.Writes (writtenOf [p]) written.shop.disk

/-- A product that is not done leaves nothing behind in either run. -/
theorem Made.Predicted.of_failed {p : Product} (failed : p.isDone = false) {dry wet : Workshop}
    {shown written : Made} (path : shown.path = written.path) (printed : shown.printed = "")
    (disk : shown.shop.disk = dry.disk) (untouched : written.shop.disk = wet.disk) :
    Predicted p dry wet shown written := by
  have nothing : writtenOf [p] = [] := by
    rw [writtenOf, List.filter_cons_of_neg (by rw [failed]; exact Bool.false_ne_true)]
    rfl
  refine ⟨path, ?_, disk, ?_⟩
  · rw [printed, nothing]
    rfl
  · rw [nothing]
    exact untouched

/-- A unit that the real run can write is shown as it is written. -/
theorem predicted_of_unit {u : GeneratedUnit} {dry wet : Workshop} {path : String}
    {decoration : Decoration} (isUnit : unitFor? wet decoration = some u)
    (shown : (generate config.dry.output dry decoration).IsUnit config.dry.output dry u)
    (made : (generate config.wet.output wet decoration).IsUnit config.wet.output wet u)
    (written : ¬(productOf config.wet.output wet path decoration).IsUnwritten config.wet.output) :
    Made.Predicted (productOf config.wet.output wet path decoration) dry wet
      (generate config.dry.output dry decoration) (generate config.wet.output wet decoration) := by
  have samePlace : config.dry.output.place u = config.wet.output.place u := rfl
  cases placed : config.wet.output.place u with
  | error failure =>
    have unwritten := Output.write_of_unplaced placed wet.disk
    have unshown := Output.write_of_unplaced (samePlace.trans placed) dry.disk
    have failed : (productOf config.wet.output wet path decoration).isDone = false := by
      rw [productOf, made.path, unwritten]
      rfl
    refine .of_failed failed ?_ ?_ ?_ ?_
    · rw [shown.path, unshown, made.path, unwritten]
    · rw [shown.printed, unshown]
    · rw [shown.disk, unshown]
    · rw [made.disk, unwritten]
  | ok output =>
    have isShown := Output.write_of_shown rfl (samePlace.trans placed) dry.disk
    cases done : (config.wet.output.write wet.disk u).path with
    | error failure =>
      have failed : (productOf config.wet.output wet path decoration).isDone = false := by
        rw [productOf, made.path, done]
        rfl
      exact absurd ⟨failed, u, output, isUnit, placed⟩ written
    | ok output' =>
      obtain ⟨placed', wrote, after⟩ := Output.write_of_ok rfl done
      obtain rfl : output = output' := Except.ok.inj (placed.symm.trans placed')
      have isWritten : writtenOf [productOf config.wet.output wet path decoration] =
          [(output, u.source)] := by
        rw [productOf, made.path, done, isUnit]
        rfl
      refine ⟨?_, ?_, ?_, ?_⟩
      · rw [shown.path, isShown, made.path, done]
      · rw [shown.printed, isShown, isWritten, List.map_singleton, String.join_cons, String.join_nil,
          String.append_empty]
        rfl
      · rw [shown.disk, isShown]
      · rw [isWritten, made.disk, after]
        exact ⟨wrote, rfl⟩

/-- **One declaration** comes to the same in both runs. -/
theorem generate_predicted (separate : config.IsSeparate d) {dry wet : Workshop}
    (dryFaithful : dry.Faithful config d) (wetFaithful : wet.Faithful config d) {path : String}
    {decoration : Decoration} (placeable : decoration.IsPlaceable)
    (written : ¬(productOf config.wet.output wet path decoration).IsUnwritten config.wet.output) :
    Made.Predicted (productOf config.wet.output wet path decoration) dry wet
      (generate config.dry.output dry decoration) (generate config.wet.output wet decoration) := by
  have isUnit := unitFor?_eq separate wetFaithful placeable
  have sameUnit := (unitFor?_eq separate dryFaithful placeable).trans isUnit.symm
  rcases generate_cases config.wet.output wet decoration with ⟨nothing, failed⟩ | ⟨u, _, some_, -, made⟩
  · rcases generate_cases config.dry.output dry decoration with ⟨-, failed'⟩ | ⟨_, _, some_, -, -⟩
    · have dryPath := (generate_eq separate.dry dryFaithful.dry placeable).1
      have wetPath := (generate_eq separate.wet wetFaithful.wet placeable).1
      obtain ⟨failure, isFailure⟩ := failed.path
      have notDone : (productOf config.wet.output wet path decoration).isDone = false := by
        rw [productOf, isFailure]
        rfl
      refine .of_failed notDone ?_ failed'.printed failed'.disk failed.disk
      rw [dryPath, wetPath]
      exact outputAt_of_none (isUnit.symm.trans nothing) _ _
    · rw [sameUnit, nothing] at some_
      cases some_
  · rcases generate_cases config.dry.output dry decoration with ⟨nothing, -⟩ | ⟨u', _, some', -, made'⟩
    · rw [sameUnit, some_] at nothing
      cases nothing
    · obtain rfl : u = u' := Option.some.inj (some_.symm.trans (sameUnit.symm.trans some'))
      exact predicted_of_unit some_ made' made written

/-! ### All units -/

/-- What both runs come to for all declarations: the real one writes these texts, and the dry one shows
them. -/
structure Generation.Predicted (texts : List (String × String)) (dry wet : Disk)
    (shown written : Generation) : Prop where
  results : shown.results = written.results
  previews : Event.shown shown.events = String.join (texts.map shownAt)
  disk : shown.shop.disk = dry
  writes : wet.Writes texts written.shop.disk

/-- **All declarations** come to the same in both runs. -/
theorem generateAll_predicted (separate : config.IsSeparate d)
    (declared : List (String × Attempt Decoration))
    (placeable : ∀ entry ∈ declared, ∀ decoration, entry.2 = .present decoration →
      decoration.IsPlaceable) :
    ∀ dry wet : Workshop, dry.Faithful config d → wet.Faithful config d →
      (∀ p ∈ productsOf config.wet.output wet declared, ¬p.IsUnwritten config.wet.output) →
      Generation.Predicted (writtenOf (productsOf config.wet.output wet declared)) dry.disk wet.disk
        (generateAll config.dry.output dry declared) (generateAll config.wet.output wet declared) := by
  induction declared with
  | nil => exact fun _ _ _ _ _ => ⟨rfl, rfl, rfl, rfl⟩
  | cons entry declared ih =>
    intro dry wet dryFaithful wetFaithful unwritten
    obtain ⟨first, others⟩ := List.forall_mem_cons.mp placeable
    obtain ⟨path, attempt⟩ := entry
    cases attempt with
    | empty => exact ih others dry wet dryFaithful wetFaithful unwritten
    | failed failure =>
      obtain ⟨-, rest⟩ := List.forall_mem_cons.mp unwritten
      have predicted := ih others dry wet dryFaithful wetFaithful rest
      refine ⟨congrArg (_ :: ·) predicted.results, ?_, predicted.disk, predicted.writes⟩
      exact (shown_after _ "" _).trans (String.empty_append.trans predicted.previews)
    | present decoration =>
      obtain ⟨here, rest⟩ := List.forall_mem_cons.mp unwritten
      have made := generate_predicted separate dryFaithful wetFaithful (first decoration rfl) here
      have dryStill := (generate_eq separate.dry dryFaithful.dry (first decoration rfl)).2
      have wetStill := (generate_eq separate.wet wetFaithful.wet (first decoration rfl)).2
      have predicted := ih others _ _ ⟨dryStill.loader, dryStill.disk⟩ ⟨wetStill.loader, wetStill.disk⟩ rest
      rw [productsOf, writtenOf_cons]
      refine ⟨?_, ?_, predicted.disk.trans made.disk, made.writes.append predicted.writes⟩
      · rw [generateAll, generateAll, Generation.after, Generation.after, made.path, predicted.results]
      · rw [generateAll, shown_after, made.printed, predicted.previews, List.map_append, String.join_append]

/-! ### Runs -/

/-- What a dry run tells of the real one, which writes these texts. -/
structure Outcome.Predicts (dry wet : Outcome) (d : Disk) (texts : List (String × String)) : Prop where
  /-- Both tell the same of all files, and of the run as a whole. -/
  summary : dry.summary = wet.summary
  failure : dry.failure = wet.failure
  /-- The texts are those of the files without a failure, in their order. -/
  outputs : texts.map (·.1) = wet.summary.files
  /-- The real run writes these texts, and nothing else. -/
  writes : d.Writes texts wet.disk
  /-- The dry run shows each of them behind its path. -/
  shown : Event.shown dry.events = String.join (texts.map shownAt)

/-- A declaration leaves all files as they are in a dry run. -/
theorem disk_generate {out : Output} (dry : out.dryRun = true) (shop : Workshop)
    (decoration : Decoration) : (generate out shop decoration).shop.disk = shop.disk := by
  rcases generate_cases out shop decoration with ⟨-, nothing⟩ | ⟨u, _, -, -, made⟩
  · exact nothing.disk
  · rw [made.disk, (Output.write_of_dryRun dry u shop.disk).2]

/-- A dry run leaves all files as they are. -/
theorem disk_of_dryRun (out : Output) (dry : out.dryRun = true)
    (declared : List (String × Attempt Decoration)) :
    ∀ shop : Workshop, (generateAll out shop declared).shop.disk = shop.disk := by
  induction declared with
  | nil => exact fun _ => rfl
  | cons entry declared ih =>
    intro shop
    obtain ⟨path, attempt⟩ := entry
    cases attempt with
    | empty => exact ih shop
    | failed failure => exact ih shop
    | present decoration => exact (ih _).trans (disk_generate dry shop decoration)

/-- A run that ends before any file is read leaves all files as they are, and shows nothing. -/
theorem runScan_stopped {runId : String} {cancelled : Bool} {stopped : Outcome}
    (isScan : runScan config runId cancelled d = .error stopped) :
    stopped.summary.files = [] ∧ Event.shown stopped.events = "" ∧ stopped.disk = d := by
  rw [runScan] at isScan
  split at isScan
  · cases isScan
    exact ⟨rfl, rfl, rfl⟩
  · split at isScan
    · cases isScan
      exact ⟨rfl, rfl, rfl⟩
    · cases isScan

/-- The paths of what is written are those of the results without a failure. -/
theorem outputs_writtenOf (products : List Product) (s : Summary) :
    (writtenOf products).map (·.1) = (s.withResults (products.map (·.result))).files := by
  rw [writtenOf, List.map_map, Summary.withResults, List.filter_map, List.map_map]
  rfl

/-- Nothing but the units is shown. -/
theorem shown_runScanned {runId : String} {files : List String} {extraction : Extraction}
    (stopping : stopping? config extraction.declared = none) :
    Event.shown (runScanned config runId d files extraction).events =
      Event.shown (generateAll config.output
        ⟨.sharing extraction.reader config.descriptorDirs config.sourcePath, d⟩
        extraction.declared).events := by
  have closing (s : Summary) : Event.shown (closingEvents s) = "" := by
    rw [closingEvents]
    split <;> rfl
  have opening (events others : List Event) (none_ : Event.shown events = "") :
      Event.shown (events ++ others) = Event.shown others := by
    rw [Event.shown, List.map_append, String.join_append, ← Event.shown, none_, String.empty_append]
    rfl
  have ending (events others : List Event) (none_ : Event.shown others = "") :
      Event.shown (events ++ others) = Event.shown events := by
    rw [Event.shown, List.map_append, String.join_append, ← Event.shown, ← Event.shown, none_,
      String.append_empty]
  rw [runScanned, runDeclared, stopping]
  exact (opening _ _ rfl).trans ((ending _ _ (closing _)).trans (opening [_] _ rfl))

/-- A run on files that are found is predicted. -/
theorem runScanned_predicts (separate : config.IsSeparate d) {runId : String} {files : List String}
    {dry wet : Extraction} (dryYields : Pool.Yields config.workers d files dry)
    (wetYields : Pool.Yields config.workers d files wet)
    (unwritten : ∀ p ∈ productsDeclared config.wet d wet, ¬p.IsUnwritten config.wet.output) :
    (runScanned config.dry runId d files dry).Predicts (runScanned config.wet runId d files wet) d
      (writtenOf (productsDeclared config.wet d wet)) := by
  have sameDeclared : dry.declared = wet.declared := dryYields.declared_eq.1.trans wetYields.declared_eq.1.symm
  have sameStop : stopping? config.dry dry.declared = stopping? config.wet wet.declared :=
    congrArg (stopping? config.wet) sameDeclared
  rw [productsDeclared] at unwritten ⊢
  cases isStop : stopping? config.wet wet.declared with
  | some stop =>
    rw [runScanned, runScanned, runDeclared, runDeclared, sameStop, isStop, sameDeclared]
    exact ⟨rfl, rfl, rfl, rfl, rfl⟩
  | none =>
    rw [isStop] at unwritten
    have placeable : ∀ entry ∈ wet.declared, ∀ decoration, entry.2 = .present decoration →
        decoration.IsPlaceable := by
      rw [wetYields.declared_eq.1]
      exact fun entry member decoration => isPlaceable_of_mem member
    have predicted := generateAll_predicted separate wet.declared placeable _ _
      (faithful_of_yields dryYields) (faithful_of_yields wetYields) unwritten
    have results := results_generateAll config.wet.output wet.declared
      ⟨.sharing wet.reader config.descriptorDirs config.sourcePath, d⟩
    refine ⟨?_, ?_, ?_, ?_, ?_⟩
    · rw [runScanned, runScanned, runDeclared, runDeclared, sameStop, isStop, sameDeclared]
      exact congrArg (Summary.withResults _) (sameDeclared ▸ predicted.results)
    · rw [runScanned, runScanned, runDeclared, runDeclared, sameStop, isStop]
      rfl
    · rw [runScanned, runDeclared, isStop]
      exact (outputs_writtenOf _ _).trans
        (congrArg (fun results => (Summary.withResults _ results).files) results.symm)
    · rw [runScanned, runDeclared, isStop]
      exact predicted.writes
    · rw [shown_runScanned (sameStop.trans isStop), sameDeclared]
      exact predicted.previews

/-- **A dry run** leaves all files as they are. If the real run can write all units that it makes, the dry
run tells what the real one tells, and shows what it writes. -/
theorem Runs.dry_predicts (config : Config) (runId : String) (cancelled : Bool) (d : Disk) :
    (∀ dry, Runs config.dry runId cancelled d dry → dry.disk = d) ∧
    (config.IsSeparate d → ∀ dry wet products, Runs config.dry runId cancelled d dry →
      Runs.Making config.wet runId cancelled d wet products →
      (∀ p ∈ products, ¬p.IsUnwritten config.wet.output) → dry.Predicts wet d (writtenOf products)) := by
  constructor
  · intro dry runs
    unfold Runs at runs
    cases isScan : runScan config.dry runId cancelled d with
    | error stopped =>
      rw [isScan] at runs
      exact runs ▸ (runScan_stopped isScan).2.2
    | ok files =>
      rw [isScan] at runs
      obtain ⟨extraction, -, rfl⟩ := runs
      rw [runScanned, runDeclared]
      cases stopping? config.dry extraction.declared with
      | some stop => rfl
      | none => exact disk_of_dryRun _ rfl _ _
  · intro separate dry wet products dryRuns making unwritten
    have sameScan : runScan config.dry runId cancelled d = runScan config.wet runId cancelled d := rfl
    unfold Runs at dryRuns
    unfold Making at making
    rw [sameScan] at dryRuns
    cases isScan : runScan config.wet runId cancelled d with
    | error stopped =>
      rw [isScan] at dryRuns making
      obtain ⟨rfl, rfl⟩ := making
      obtain rfl := dryRuns
      obtain ⟨files, shown, disk⟩ := runScan_stopped isScan
      exact ⟨rfl, rfl, files.symm, disk, shown⟩
    | ok files =>
      rw [isScan] at dryRuns making
      obtain ⟨extraction, dryYields, rfl⟩ := dryRuns
      obtain ⟨extraction, wetYields, rfl, rfl⟩ := making
      exact runScanned_predicts separate dryYields wetYields unwritten

/-! ### The pair -/

/-- The declarations of the pair can be written. -/
theorem writable_pair {outputDir archive : String}
    (writable : ((pairConfig outputDir archive).output.write pairDisk firstOfPair.blank).path.isOk = true ∧
      ((pairConfig outputDir archive).output.write pairDisk secondOfPair.blank).path.isOk = true) :
    ∀ files, pairDisk.scan ["src/..."] = .ok files → ∀ entry ∈ pairDisk.declaredIn files,
      ∀ decoration, entry.2 = .present decoration →
        ((pairConfig outputDir archive).output.write pairDisk decoration.blank).path.isOk = true := by
  intro files found
  rw [scan_pair] at found
  cases found
  rw [Disk.declaredIn, List.map_cons, List.map_singleton, extractionOf_pair.1, extractionOf_pair.2]
  refine List.forall_mem_cons.mpr ⟨fun decoration present => ?_,
    List.forall_mem_singleton.mpr fun decoration present => ?_⟩
  · cases present
    exact writable.1
  · cases present
    exact writable.2

theorem dry_predicts_pair :
    (pairConfig "gen" "q.jar").IsSeparate pairDisk ∧
    ∃ dry wet products, Runs (pairConfig "gen" "q.jar").dry "" false pairDisk dry ∧
      Runs.Making (pairConfig "gen" "q.jar").wet "" false pairDisk wet products ∧
      (∀ p ∈ products, ¬p.IsUnwritten (pairConfig "gen" "q.jar").wet.output) ∧
      dry.disk = pairDisk ∧ dry.Predicts wet pairDisk (writtenOf products) := by
  have dryRuns := runs_run (pairConfig "gen" "q.jar").dry "" false pairDisk
  obtain ⟨products, making⟩ := (runs_run (pairConfig "gen" "q.jar").wet "" false pairDisk).exists_making
  have written := making.written separate_pair.tree.isGrounded (writable_pair (by decide +kernel))
  obtain ⟨unchanged, predicts⟩ := Runs.dry_predicts (pairConfig "gen" "q.jar") "" false pairDisk
  exact ⟨separate_pair, _, _, products, dryRuns, making, written, unchanged _ dryRuns,
    predicts separate_pair _ _ products dryRuns making written⟩

/-! ### A detour -/

/-- A declaration whose type is not found fails for this reason. -/
theorem path_of_unloaded {out : Output} {shop : Workshop} {decoration : Decoration} {failure : Failure}
    (unloaded : (shop.loader.load shop.disk false decoration.decorated).1 = .error failure) :
    (generate out shop decoration).path = .error failure := by
  rw [generate]
  generalize shop.loader.load shop.disk false decoration.decorated = outcome at unloaded ⊢
  obtain ⟨loaded, loader⟩ := outcome
  obtain rfl : loaded = .error failure := unloaded
  rfl

theorem loader_generate (out : Output) (shop : Workshop) (decoration : Decoration) :
    (generate out shop decoration).shop.loader =
      (shop.loader.load shop.disk false decoration.decorated).2 := by
  rw [generate]
  generalize shop.loader.load shop.disk false decoration.decorated = outcome
  obtain ⟨loaded, loader⟩ := outcome
  cases loaded with
  | error failure => rfl
  | ok surface =>
    dsimp only
    cases Forwarding.synthesize decoration (some surface) <;> rfl

/-- In a dry run a declaration behind another one fails if its type is not found at the beginning. -/
theorem path_of_unfound (config : Config) {files : List String} {extraction : Extraction} {workers : Int}
    (yields : Pool.Yields workers d files extraction) {one other : Decoration}
    (placeable : one.IsPlaceable ∧ other.IsPlaceable) {failure : Failure}
    (unfound : TypeLoader.atFirst d config.descriptorDirs config.sourcePath other.decorated =
      .error failure) :
    (generate config.dry.output (generate config.dry.output
      ⟨.sharing extraction.reader config.dry.descriptorDirs config.dry.sourcePath, d⟩ one).shop
        other).path = .error failure := by
  have start : Workshop.Faithful config.dry d _ := faithful_of_yields yields
  have still := (start.loader.load_eq (.refl d _) placeable.1.decorated).2 d
  refine path_of_unloaded ?_
  rw [← unfound, loader_generate, disk_generate rfl]
  exact (still.load_eq (.refl d _) placeable.2.decorated).1

/-- **A detour through the output directory** makes a real run differ from the dry one. The second type is
found when the first unit has made the directory on the way to it, and a dry run does not make it. -/
theorem detour_not_predicted :
    pairDisk.IsTree ∧
    (∀ root ∈ detourConfig.sourcePath, pairDisk.Apart detourConfig.outputDir root) ∧
    ∃ dry wet products, Runs detourConfig.dry "" false pairDisk dry ∧
      Runs.Making detourConfig.wet "" false pairDisk wet products ∧
      (∀ p ∈ products, ¬p.IsUnwritten detourConfig.wet.output) ∧
      dry.summary.results ≠ wet.summary.results := by
  have tree : pairDisk.IsTree := separate_pair.tree
  obtain ⟨products, making⟩ := (runs_run detourConfig.wet "" false pairDisk).exists_making
  have written := making.written tree.isGrounded (writable_pair (by decide +kernel))
  refine ⟨tree, by decide +kernel, _, _, products, runs_run detourConfig.dry "" false pairDisk, making,
    written, fun same => ?_⟩
  have scanned (config : Config) (isSource : config.sourceDirs = ["src/..."]) :
      runScan config "" false pairDisk = .ok ["/src/a/A.java", "/src/b/B.java"] := by
    rw [runScan, isSource, scan_pair]
    rfl
  have unfound : ∃ failure, ((SourceLoader.ofRoots detourConfig.sourcePath).library pairDisk).declaration
      secondOfPair.decorated = .error failure ∧ failure.hasCode .unresolved = true :=
    exists_error_of_any (by decide +kernel)
  obtain ⟨failure, unfound, unresolved⟩ := unfound
  rw [run, run, scanned _ rfl, scanned _ rfl] at same
  dsimp only at same
  rw [(runScanned_eq rfl "" pairDisk _).2, (runScanned_eq rfl "" pairDisk _).2, Disk.declaredIn,
    List.map_cons, List.map_singleton, extractionOf_pair.1, extractionOf_pair.2] at same
  have sameFailure := congrArg (·.failure) (List.cons.inj (List.cons.inj same).2).1
  have dryPath := path_of_unfound detourConfig
    (Pool.yields_extractAll 1 pairDisk ["/src/a/A.java", "/src/b/B.java"])
    ⟨isPlaceable_of_extractionOf extractionOf_pair.1, isPlaceable_of_extractionOf extractionOf_pair.2⟩
    (TypeLoader.atFirst_of_unresolved unfound unresolved)
  rw [dryPath] at sameFailure
  cases made : (generate detourConfig.wet.output (generate detourConfig.wet.output _ firstOfPair).shop
      secondOfPair).path with
  | ok output =>
    rw [made] at sameFailure
    cases sameFailure
  | error other =>
    rw [made] at sameFailure
    obtain rfl : Failure.typeNotFound secondOfPair.decorated (some failure) = other :=
      Option.some.inj sameFailure
    exact code_of_generate (holds_generate late_in_detour.1 late_in_detour.2) made rfl

end Forwarder
