/-
**Runs are pointwise.** All files of a run share one reader, one loader that remembers and one output
directory, and are extracted in any order. Still each has the result that it would have alone, as long as
the output directory and the source path are disjoint.

* `Workshop.Faithful` — the loader and the disk of a run in its midst.
* `Disk.resultAt?` — the result of a file, from the disk at the beginning and the time of its writing.
* `generate_eq`, `generateAll_eq` — one unit, and all units one after the other.
* `FileResult.IsAlone` — a result is that of every run that finds only its file.
* `not_isAlone_of_late` — a file fares differently alone, if its type is found because of another file.
* **`Runs.pointwise`** — the results of a run, file by file and in numbers.
* `detour_not_alone` — disjoint directories are not enough for an archive that is named by a detour.
-/

import Forwarder.Proofs.Loading.Undisturbed
import Forwarder.Proofs.Batch.Output
import Forwarder.Proofs.Batch.Pool
import Forwarder.Proofs.Batch.Scan
import Forwarder.Proofs.Decoration.Extract
import Forwarder.Proofs.Loading.RunLoader

namespace Forwarder

open Disk (Grown)
open Source (isIdentifier)
open SourceLoader (diskOf)

variable {config : Config} {d : Disk}

/-! ### One unit -/

/-- The output of a run. -/
def Config.output (config : Config) : Output :=
  ⟨config.outputDir, config.dryRun⟩

/-- The disk is a tree, and what is written on it does not reach the source path. -/
structure Config.IsSeparate (config : Config) (d : Disk) : Prop where
  tree : d.IsTree
  apart : ∀ root ∈ config.sourcePath, d.Apart config.outputDir root
  upfront : ∀ root ∈ config.sourcePath, IsUpfront root

/-- The workshop of a run in its midst: what is remembered was found on the disk at the beginning, and
the disk has changed below the output directory only. -/
structure Workshop.Faithful (config : Config) (d : Disk) (shop : Workshop) : Prop where
  loader : shop.loader.Faithful d config.descriptorDirs config.sourcePath shop.disk
  disk : Grown (d.spot config.output.root) d shop.disk

/-- The declaration has names that are parts of paths. -/
structure Decoration.IsPlaceable (decoration : Decoration) : Prop where
  decorated : IsRelativeName decoration.decorated
  className : '/' ∉ decoration.className.toList

theorem Decoration.isPlaceable_of_read {file text : String} {decoration : Decoration}
    (accepted : read file text = .present decoration) : decoration.IsPlaceable := by
  refine ⟨relative_of_read accepted, fun slash => ?_⟩
  have part := Source.isIdentPart_of_isIdentifier (worded_of_read accepted).className '/' slash
  exact absurd part (by decide +kernel)

/-- The output of a declaration, from the disk at the beginning and the time of the writing. -/
def Disk.outputAt (d : Disk) (config : Config) (now : Nat) (decoration : Decoration) :
    Except Failure String :=
  match TypeLoader.atFirst d config.descriptorDirs config.sourcePath decoration.decorated with
  | .error failure => .error failure
  | .ok surface =>
    match Forwarding.synthesize decoration (some surface) with
    | .error failure => .error (.generation decoration.implName (some failure))
    | .ok unit => (config.output.write (d.atClock now) unit).path

theorem slash_not_mem_of_synthesize {decoration : Decoration} (placeable : decoration.IsPlaceable)
    {surface : Option Surface} {u : GeneratedUnit}
    (made : Forwarding.synthesize decoration surface = .ok u) : '/' ∉ u.className.toList := by
  unfold Forwarding.synthesize at made
  split at made
  · split at made
    · cases made
    · split at made
      · split at made
        · cases made
        · cases made
          show '/' ∉ (decoration.className ++ "Impl").toList
          rw [String.toList_append, List.mem_append, not_or]
          exact ⟨placeable.className, by decide⟩
      · cases made
  · cases made

/-- **One unit.** Its output depends on the beginning and the time alone, and the workshop stays as it
should be. -/
theorem generate_eq (separate : config.IsSeparate d) {shop : Workshop} (faithful : shop.Faithful config d)
    {decoration : Decoration} (placeable : decoration.IsPlaceable) :
    (generate config.output shop decoration).path = d.outputAt config shop.disk.clock decoration ∧
      (generate config.output shop decoration).shop.Faithful config d := by
  obtain ⟨loader, grown⟩ := faithful
  have undisturbed : d.Undisturbed shop.disk config.sourcePath :=
    grown.undisturbed separate.tree separate.apart separate.upfront
  obtain ⟨answer, still⟩ := loader.load_eq undisturbed placeable.decorated
  rw [generate, Disk.outputAt, ← answer]
  generalize shop.loader.load shop.disk false decoration.decorated = outcome at still ⊢
  obtain ⟨loaded, loader'⟩ := outcome
  cases loaded with
  | error failure => exact ⟨rfl, still _, grown⟩
  | ok surface =>
    dsimp only
    cases made : Forwarding.synthesize decoration (some surface) with
    | error failure => exact ⟨rfl, still _, grown⟩
    | ok u =>
      have free := slash_not_mem_of_synthesize placeable made
      have grounded := separate.tree.isGrounded
      exact ⟨Output.write_eq grown grounded free, still _, Output.grown_write grown grounded free⟩

/-! ### All units -/

/-- The result of a file, from the disk at the beginning and the time of the writing. A file without a
declaration has none. -/
def Disk.resultAt? (d : Disk) (config : Config) (now : Nat) (path : String) :
    Attempt Decoration → Option FileResult
  | .empty => none
  | .failed failure => some ⟨path, "", "", "", some failure⟩
  | .present decoration => some (resultOf path decoration (d.outputAt config now decoration))

/-- The results are those of the entries, each at some time. -/
def Disk.Timed (d : Disk) (config : Config) (entries : List (String × Attempt Decoration))
    (results : List FileResult) : Prop :=
  List.Forall₂ (fun entry result => ∃ now, d.resultAt? config now entry.1 entry.2 = some result)
    entries results

/-- **All units, one after the other.** Every file that holds something has the result that it would have
at the beginning, at some time. -/
theorem generateAll_eq (separate : config.IsSeparate d) (declared : List (String × Attempt Decoration))
    (placeable : ∀ entry ∈ declared, ∀ decoration, entry.2 = .present decoration →
      decoration.IsPlaceable) :
    ∀ shop : Workshop, shop.Faithful config d →
      d.Timed config (declared.filter fun entry => !entry.2.isEmpty)
        (generateAll config.output shop declared).results := by
  induction declared with
  | nil => exact fun _ _ => .nil
  | cons entry declared ih =>
    intro shop faithful
    obtain ⟨first, others⟩ := List.forall_mem_cons.mp placeable
    obtain ⟨path, attempt⟩ := entry
    cases attempt with
    | empty => exact ih others shop faithful
    | failed failure => exact .cons ⟨0, rfl⟩ (ih others shop faithful)
    | present decoration =>
      obtain ⟨output, still⟩ := generate_eq separate faithful (first decoration rfl)
      refine .cons ⟨shop.disk.clock, ?_⟩ (ih others _ still)
      rw [Disk.resultAt?, output]

theorem path_of_resultAt? {path : String} {attempt : Attempt Decoration} {now : Nat} {r : FileResult}
    (isResult : d.resultAt? config now path attempt = some r) : r.path = path := by
  cases attempt with
  | empty => cases isResult
  | failed failure =>
    cases isResult
    rfl
  | present decoration =>
    cases isResult
    unfold resultOf
    split <;> rfl

namespace Disk.Timed

variable {entries : List (String × Attempt Decoration)} {results : List FileResult}

theorem paths (timed : d.Timed config entries results) :
    results.map (·.path) = entries.map (·.1) := by
  induction timed with
  | nil => rfl
  | cons first _ ih =>
    obtain ⟨_, isResult⟩ := first
    rw [List.map_cons, List.map_cons, ih, path_of_resultAt? isResult]

theorem exists_of_mem (timed : d.Timed config entries results) :
    ∀ r ∈ results, ∃ entry ∈ entries, ∃ now, d.resultAt? config now entry.1 entry.2 = some r := by
  induction timed with
  | nil => exact List.forall_mem_nil _
  | @cons entry r _ _ first _ ih =>
    refine List.forall_mem_cons.mpr ⟨⟨entry, List.mem_cons_self, first⟩, fun other member => ?_⟩
    obtain ⟨entry, isEntry, isResult⟩ := ih other member
    exact ⟨entry, List.mem_cons_of_mem _ isEntry, isResult⟩

end Disk.Timed

/-- A single file has its result at the time of the beginning. -/
theorem generateAll_single (separate : config.IsSeparate d) {shop : Workshop}
    (faithful : shop.Faithful config d) {path : String} {attempt : Attempt Decoration}
    (placeable : ∀ decoration, attempt = .present decoration → decoration.IsPlaceable) :
    (generateAll config.output shop [(path, attempt)]).results =
      (d.resultAt? config shop.disk.clock path attempt).toList := by
  cases attempt with
  | empty => rfl
  | failed failure => rfl
  | present decoration =>
    have output := (generate_eq separate faithful (placeable decoration rfl)).1
    rw [Disk.resultAt?, ← output]
    rfl

/-! ### Results that are alike -/

/-- The same result, but for the name of a temporary file in its failure. -/
structure FileResult.Alike (r s : FileResult) : Prop where
  path : r.path = s.path
  className : r.className = s.className
  decorated : r.decorated = s.decorated
  output : r.output = s.output
  failure : Option.Rel Failure.Alike r.failure s.failure

theorem alike_outputAt (grounded : d.IsGrounded) {decoration : Decoration}
    (placeable : decoration.IsPlaceable) (now later : Nat) :
    AlikeResult (d.outputAt config now decoration) (d.outputAt config later decoration) := by
  rw [Disk.outputAt, Disk.outputAt]
  cases TypeLoader.atFirst d config.descriptorDirs config.sourcePath decoration.decorated with
  | error failure => exact .refl _
  | ok surface =>
    dsimp only
    cases made : Forwarding.synthesize decoration (some surface) with
    | error failure => exact .refl _
    | ok u => exact Output.write_atClock grounded (slash_not_mem_of_synthesize placeable made) now later

/-- **The time of a file** shows in the names of temporary files only. -/
theorem alike_resultAt? (grounded : d.IsGrounded) {path : String} {attempt : Attempt Decoration}
    (placeable : ∀ decoration, attempt = .present decoration → decoration.IsPlaceable)
    {now : Nat} {r : FileResult} (isResult : d.resultAt? config now path attempt = some r)
    (later : Nat) : ∃ s, d.resultAt? config later path attempt = some s ∧ s.Alike r := by
  cases attempt with
  | empty => cases isResult
  | failed failure =>
    cases isResult
    exact ⟨_, rfl, rfl, rfl, rfl, rfl, .some (.same failure)⟩
  | present decoration =>
    cases isResult
    have alike : AlikeResult (d.outputAt config later decoration) (d.outputAt config now decoration) :=
      alike_outputAt grounded (placeable decoration rfl) later now
    refine ⟨_, rfl, ?_⟩
    generalize d.outputAt config later decoration = first at alike ⊢
    generalize d.outputAt config now decoration = second at alike ⊢
    cases alike with
    | ok output => exact ⟨rfl, rfl, rfl, rfl, .none⟩
    | error alike => exact ⟨rfl, rfl, rfl, rfl, .some alike⟩

/-! ### Runs -/

/-- What is extracted from files. -/
def Disk.declaredIn (d : Disk) (files : List String) : List (String × Attempt Decoration) :=
  files.map fun path => (path, d.extractionOf path)

theorem isPlaceable_of_extractionOf {path : String} {decoration : Decoration}
    (present : d.extractionOf path = .present decoration) : decoration.IsPlaceable := by
  rw [Disk.extractionOf] at present
  split at present
  · cases present
  · split at present
    · exact Decoration.isPlaceable_of_read present
    · cases present

/-- The summary of a run that makes no difference between all and nothing. -/
theorem RunsOn.summary_eq {runId : String} {now : Nat} {files : List String} {o : Outcome}
    (runs : RunsOn config runId (d.atClock now) files o) (partially : config.allOrNothing = false) :
    ∃ shop : Workshop, shop.Faithful config d ∧ shop.disk.clock = now ∧
      o.summary = Summary.withResults { Summary.start runId with
          scanned := files.length
          candidates := ((d.declaredIn files).filter fun entry => !entry.2.isEmpty).length }
        (generateAll config.output shop (d.declaredIn files)).results := by
  obtain ⟨extraction, yields, rfl⟩ := runs
  obtain ⟨declared, faithful⟩ := yields.declared_eq
  have isDeclared : extraction.declared = d.declaredIn files := by
    rw [declared, Disk.declaredIn]
    simp only [Disk.extractionOf_atClock]
  have genuine : extraction.reader.Genuine := by
    rw [Reader.Genuine, yields.2]
    exact List.forall_mem_nil _
  refine ⟨⟨.sharing extraction.reader config.descriptorDirs config.sourcePath, d.atClock now⟩,
    ⟨TypeLoader.faithful_sharing faithful.of_atClock genuine
      (DescriptorLoader.surfacesIn_atClock d now _) _, Disk.grown_atClock _ d now⟩, rfl, ?_⟩
  simp only [runScanned, runDeclared, stopping?, partially, Bool.false_eq_true, if_false, runExtracted,
    isDeclared]
  rfl

/-- The result is that of a run that finds only its file, however many workers it has. -/
structure FileResult.IsAlone (r : FileResult) (config : Config) (d : Disk) : Prop where
  /-- At some time there are such runs, and all of them have the very same result. -/
  same : ∃ now, ∀ workers sourceDirs runId,
    (∃ o, RunsOn { config with workers, sourceDirs } runId (d.atClock now) [r.path] o) ∧
    ∀ o, RunsOn { config with workers, sourceDirs } runId (d.atClock now) [r.path] o →
      o.summary.results = [r]
  /-- At any time the result is the same but for temporary names. -/
  alike : ∀ now workers sourceDirs runId o,
    RunsOn { config with workers, sourceDirs } runId (d.atClock now) [r.path] o →
      ∃ s, o.summary.results = [s] ∧ s.Alike r

/-- Taking the files one after the other is a run. -/
theorem runsOn_extractAll (config : Config) (runId : String) (d : Disk) (files : List String) :
    RunsOn config runId d files (runScanned config runId d files (Reader.fresh.extractAll d files)) :=
  ⟨_, Pool.yields_extractAll config.workers d files, rfl⟩

/-- **Runs that take one file after the other** are among the runs. -/
theorem runs_run (config : Config) (runId : String) (cancelled : Bool) (d : Disk) :
    Runs config runId cancelled d (run config runId cancelled d) := by
  rw [Runs, run]
  cases runScan config runId cancelled d with
  | error stopped => rfl
  | ok files => exact runsOn_extractAll config runId d files

/-- The result of a file is the one that runs which find only this file have. -/
theorem isAlone_of_resultAt? (separate : config.IsSeparate d) (partially : config.allOrNothing = false)
    {path : String} {now : Nat} {r : FileResult}
    (isResult : d.resultAt? config now path (d.extractionOf path) = some r) : r.IsAlone config d := by
  have isPath := path_of_resultAt? isResult
  have placeable : ∀ decoration, d.extractionOf path = .present decoration → decoration.IsPlaceable :=
    fun decoration => isPlaceable_of_extractionOf
  have results {later : Nat} {workers : Int} {sourceDirs : List String} {runId : String} {o : Outcome}
      (runs : RunsOn { config with workers, sourceDirs } runId (d.atClock later) [r.path] o) :
      o.summary.results = (d.resultAt? config later path (d.extractionOf path)).toList := by
    have separate' : Config.IsSeparate { config with workers, sourceDirs } d :=
      ⟨separate.tree, separate.apart, separate.upfront⟩
    obtain ⟨shop, faithful, isNow, isSummary⟩ := runs.summary_eq partially
    rw [isSummary, Summary.withResults, ← isNow, isPath]
    exact generateAll_single separate' faithful placeable
  refine ⟨⟨now, fun workers sourceDirs runId => ⟨⟨_, runsOn_extractAll _ runId _ _⟩, fun o runs => ?_⟩⟩,
    fun later workers sourceDirs runId o runs => ?_⟩
  · rw [results runs, isResult]
    rfl
  · obtain ⟨s, isOther, alike⟩ :=
      alike_resultAt? separate.tree.isGrounded placeable isResult later
    exact ⟨s, by rw [results runs, isOther]; rfl, alike⟩

/-! ### Types that are found late -/

theorem declared_extractAll (d : Disk) (files : List String) :
    (Reader.fresh.extractAll d files).declared = d.declaredIn files :=
  (Pool.yields_extractAll 1 d files).declared_eq.1

/-- A run that has found its files does not fail as a whole, and its results are those of all units. -/
theorem runScanned_eq (partially : config.allOrNothing = false) (runId : String) (d : Disk)
    (files : List String) :
    let reader := (Reader.fresh.extractAll d files).reader
    let o := runScanned config runId d files (Reader.fresh.extractAll d files)
    o.failure = none ∧ o.summary.results =
      (generateAll config.output ⟨.sharing reader config.descriptorDirs config.sourcePath, d⟩
        (d.declaredIn files)).results := by
  simp only [runScanned, runDeclared, stopping?, partially, Bool.false_eq_true, if_false, runExtracted,
    declared_extractAll]
  exact ⟨trivial, rfl⟩

section Units

variable {out : Output} {decoration : Decoration} {reader : Reader} {roots : List String}

/-- A unit whose type is found does not fail for want of it. -/
theorem code_of_generate {shop : Workshop}
    (holds : shop.loader.holds shop.disk decoration.decorated = true) {failure : Failure}
    (failed : (generate out shop decoration).path = .error failure) : failure.code ≠ .unresolved := by
  obtain ⟨s, loaded⟩ := TypeLoader.load_of_holds _ holds
  rw [generate] at failed
  generalize shop.loader.load shop.disk false decoration.decorated = outcome at loaded failed
  obtain ⟨result, after⟩ := outcome
  obtain rfl : result = .ok s := loaded
  dsimp only at failed
  split at failed
  · cases failed
    exact Code.noConfusion
  · rw [Output.code_of_write failed]
    exact Code.noConfusion

/-- The first unit fails if its type is not found. -/
theorem path_of_unresolved {failure : Failure}
    (undeclared : ((SourceLoader.sharing reader roots).library d).declaration decoration.decorated =
      .error failure) (unresolved : failure.hasCode .unresolved = true) :
    (generate out ⟨.sharing reader [] roots, d⟩ decoration).path =
      .error (.typeNotFound decoration.decorated (some failure)) := by
  have own : ((SourceLoader.sharing reader roots).loadOwn d decoration.decorated).1 = .error failure := by
    rw [SourceLoader.loadOwn, Library.loadWithin, undeclared]
  rw [generate, TypeLoader.load_sharing (Library.isBase_of_undeclared undeclared)]
  generalize (SourceLoader.sharing reader roots).loadOwn d decoration.decorated = outcome at own ⊢
  obtain ⟨result, after⟩ := outcome
  obtain rfl : result = .error failure := own
  dsimp only
  rw [if_pos unresolved]

/-- Once the unit is written whose type has no supertypes, the source path declares the other type. -/
def SourceLoader.declaresAfter (l : SourceLoader) (out : Output) (d : Disk) (decoration : Decoration)
    (name : String) : Bool :=
  match l.loadOwn d decoration.decorated with
  | (.ok s, l) =>
    match Forwarding.synthesize decoration (some s) with
    | .ok u => ((l.library (out.write d u).disk).declaration name).toOption.isSome
    | .error _ => false
  | (.error _, _) => false

/-- The first unit leaves a workshop that holds the types which the source path then declares. -/
theorem holds_generate {name : String}
    (base : ((SourceLoader.sharing reader roots).library d).IsBase decoration.decorated)
    (declared : (SourceLoader.sharing reader roots).declaresAfter out d decoration name = true) :
    (generate out ⟨.sharing reader [] roots, d⟩ decoration).shop.loader.holds
      (generate out ⟨.sharing reader [] roots, d⟩ decoration).shop.disk name = true := by
  rw [SourceLoader.declaresAfter] at declared
  rw [generate, TypeLoader.load_sharing base]
  generalize (SourceLoader.sharing reader roots).loadOwn d decoration.decorated = outcome at declared ⊢
  obtain ⟨result, l⟩ := outcome
  cases result with
  | error failure => cases declared
  | ok s =>
    dsimp only at declared ⊢
    cases made : Forwarding.synthesize decoration (some s) with
    | error failure =>
      rw [made] at declared
      cases declared
    | ok u =>
      rw [made] at declared
      exact declared

end Units

theorem resultOf_path (path : String) (decoration : Decoration) (output : Except Failure String) :
    (resultOf path decoration output).path = path := by
  cases output <;> rfl

/-- **A type that is found late.** If the type of the second file is found once the unit of the first is
written, and not before, the second file fares differently alone. -/
theorem not_isAlone_of_late {first second : String} {one other : Decoration}
    (partially : config.allOrNothing = false) (undescribed : config.descriptorDirs = [])
    (isOne : d.extractionOf first = .present one) (isOther : d.extractionOf second = .present other)
    (base : ((SourceLoader.sharing (Reader.fresh.extractAll d [first, second]).reader
      config.sourcePath).library d).IsBase one.decorated)
    (late : (SourceLoader.sharing (Reader.fresh.extractAll d [first, second]).reader
      config.sourcePath).declaresAfter config.output d one other.decorated = true)
    {failure : Failure} (unfound : ((SourceLoader.sharing (Reader.fresh.extractAll d [second]).reader
      config.sourcePath).library d).declaration other.decorated = .error failure)
    (unresolved : failure.hasCode .unresolved = true) {runId : String} {o : Outcome}
    (runs : o = runScanned config runId d [first, second] (Reader.fresh.extractAll d [first, second])) :
    ∃ r ∈ o.summary.results, ¬r.IsAlone config d := by
  have together := (runScanned_eq partially runId d [first, second]).2
  rw [undescribed, Disk.declaredIn, List.map_cons, List.map_singleton, isOne, isOther] at together
  rw [runs, together]
  refine ⟨_, List.mem_cons_of_mem _ List.mem_cons_self, fun alone => ?_⟩
  obtain ⟨s, isOnly, alike⟩ := alone.alike d.clock config.workers config.sourceDirs runId _
    (by rw [resultOf_path]; exact runsOn_extractAll config runId d [second])
  rw [(runScanned_eq partially runId d [second]).2, undescribed, Disk.declaredIn, List.map_singleton,
    isOther] at isOnly
  obtain rfl : resultOf second other (generate config.output _ other).path = s := (List.cons.inj isOnly).1
  have similar := alike.failure
  rw [path_of_unresolved unfound unresolved] at similar
  cases made : (generate config.output (generate config.output _ one).shop other).path with
  | ok output =>
    rw [made] at similar
    cases similar
  | error failure =>
    rw [made] at similar
    cases similar with
    | some same => exact code_of_generate (holds_generate base late) made same.code_eq.symm

/-! ### Summaries -/

namespace Summary

theorem length_results (s : Summary) (results : List FileResult) :
    (s.withResults results).generated + (s.withResults results).failed = results.length := by
  have other : (fun r : FileResult => r.failure.isSome) = fun r => decide ¬r.failure.isNone = true := by
    funext r
    cases r.failure <;> rfl
  simp only [withResults, other, ← List.countP_eq_length_filter]
  exact (List.length_eq_countP_add_countP _).symm

/-- A run fails as a whole exactly if some file does. -/
theorem failure?_eq_none_iff (s : Summary) : s.failure? = none ↔ s.failures = [] := by
  have located : ∀ r ∈ s.failures, r.located?.isSome = true := by
    intro r member
    rw [FileResult.located?, Option.isSome_map]
    exact (List.mem_filter.mp member).2
  rw [failure?]
  cases isFailures : s.failures with
  | nil => exact ⟨fun _ => rfl, fun _ => rfl⟩
  | cons r others =>
    obtain ⟨failure, isLocated⟩ := Option.isSome_iff_exists.mp
      (located r (isFailures ▸ List.mem_cons_self))
    rw [List.filterMap_cons_some isLocated]
    simp

end Summary

/-- The summary of a run on these files tells of each of them what it would come to alone. -/
structure Summary.IsPointwise (config : Config) (d : Disk) (files : List String) (s : Summary) :
    Prop where
  /-- The files are in order, each once. -/
  ordered : files.Pairwise (· < ·)
  /-- The results are those of the files that hold something, in their order. -/
  paths : s.results.map (·.path) = files.filter fun path => !(Reader.fresh.extract d path).1.isEmpty
  alone : ∀ r ∈ s.results, r.IsAlone config d
  candidates : s.candidates = s.generated + s.failed
  results : s.candidates = s.results.length
  outputs : s.files = (s.results.filter (·.failure.isNone)).map (·.output)
  failure : s.failure? = none ↔ s.failed = 0

theorem extract_eq (d : Disk) (path : String) : (Reader.fresh.extract d path).1 = d.extractionOf path := by
  have declared := (Pool.yields_extractAll 1 d [path]).declared_eq.1
  simpa [Reader.extractAll] using declared

/-- A run that ends before any file is read has failed, and one that goes on has found its files. -/
theorem runScan_cases (config : Config) (runId : String) (cancelled : Bool) (d : Disk) :
    match runScan config runId cancelled d with
    | .error stopped => stopped.failure ≠ none
    | .ok files => d.scan config.sourceDirs = .ok files := by
  rw [runScan]
  cases d.scan config.sourceDirs with
  | error failure => simp
  | ok files => cases cancelled <;> simp

/-- The files that hold something. -/
theorem map_declaredIn (d : Disk) (files : List String) :
    ((d.declaredIn files).filter fun entry => !entry.2.isEmpty).map (·.1) =
      files.filter fun path => !(Reader.fresh.extract d path).1.isEmpty := by
  have kept : (fun entry : String × Attempt Decoration => !entry.2.isEmpty) ∘
      (fun path => (path, d.extractionOf path)) =
        fun path => !(Reader.fresh.extract d path).1.isEmpty := by
    funext path
    rw [extract_eq]
    rfl
  rw [Disk.declaredIn, List.filter_map, List.map_map, kept]
  exact List.map_id _

/-- A summary of results that the files have at some times. -/
theorem isPointwise_withResults (separate : config.IsSeparate d) (partially : config.allOrNothing = false)
    {files : List String} (ordered : files.Pairwise (· < ·)) {s : Summary}
    (counted : s.candidates = ((d.declaredIn files).filter fun entry => !entry.2.isEmpty).length)
    {results : List FileResult}
    (timed : d.Timed config ((d.declaredIn files).filter fun entry => !entry.2.isEmpty) results) :
    (s.withResults results).IsPointwise config d files where
  ordered := ordered
  paths := timed.paths.trans (map_declaredIn d files)
  alone r member := by
    obtain ⟨entry, isEntry, now, isResult⟩ := timed.exists_of_mem r member
    obtain ⟨path, -, rfl⟩ := List.mem_map.mp (List.mem_filter.mp isEntry).1
    exact isAlone_of_resultAt? separate partially isResult
  candidates := by
    rw [Summary.length_results, ← List.Forall₂.length_eq timed]
    exact counted
  results := counted.trans (List.Forall₂.length_eq timed)
  outputs := rfl
  failure := by
    rw [Summary.failure?_eq_none_iff, Summary.failures, ← List.length_eq_zero_iff]
    rfl

/-- **A run is pointwise.** -/
theorem Runs.pointwise (separate : config.IsSeparate d) (partially : config.allOrNothing = false)
    {runId : String} {cancelled : Bool} {o : Outcome} (runs : Runs config runId cancelled d o)
    (ended : o.failure = none) :
    ∃ files, d.scan config.sourceDirs = .ok files ∧ o.summary.IsPointwise config d files := by
  have scanned := runScan_cases config runId cancelled d
  rw [Runs] at runs
  cases isScan : runScan config runId cancelled d with
  | error stopped =>
    rw [isScan] at runs scanned
    exact absurd (runs ▸ ended) scanned
  | ok files =>
    rw [isScan] at runs scanned
    have found : d.scan config.sourceDirs = .ok files := scanned
    have now : RunsOn config runId (d.atClock d.clock) files o := runs
    obtain ⟨shop, faithful, -, isSummary⟩ := now.summary_eq partially
    have placeable : ∀ entry ∈ d.declaredIn files, ∀ decoration, entry.2 = .present decoration →
        decoration.IsPlaceable := by
      refine List.forall_mem_map.mpr fun path _ decoration => ?_
      exact isPlaceable_of_extractionOf
    have timed := generateAll_eq separate (d.declaredIn files) placeable shop faithful
    refine ⟨files, found, ?_⟩
    rw [isSummary]
    exact isPointwise_withResults separate partially (pairwise_scan found) rfl timed

/-- A type is not found. -/
def Library.lacks (l : Library) (name : String) : Bool :=
  match l.declaration name with
  | .ok _ => false
  | .error failure => failure.hasCode .unresolved

theorem Library.exists_of_lacks {l : Library} {name : String} (lacks : l.lacks name = true) :
    ∃ failure, l.declaration name = .error failure ∧ failure.hasCode .unresolved = true := by
  rw [Library.lacks] at lacks
  cases declared : l.declaration name with
  | ok found =>
    rw [declared] at lacks
    cases lacks
  | error failure =>
    rw [declared] at lacks
    exact ⟨failure, rfl, lacks⟩

/-- Two declarations and the types that they decorate, one of them in an archive. -/
def pairDisk : Disk :=
  (diskOf [(["src", "a"], "A", "package a; import p.P; class A implements Decorator<P> \x7b\x7d"),
    (["src", "b"], "B", "package b; import q.Q; class B implements Decorator<Q> \x7b\x7d"),
    (["lib", "p"], "P", "package p; interface P \x7b\x7d")]).put ["q.jar"]
      (.file ⟨.archive [("q/Q.java", "package q; interface Q \x7b\x7d")], .given 0⟩)

/-- A configuration for these declarations. -/
def pairConfig (outputDir archive : String) : Config :=
  { Config.standard 1 with sourceDirs := ["src/..."], outputDir, sourcePath := ["lib", archive] }

theorem separate_pair : (pairConfig "gen" "q.jar").IsSeparate pairDisk :=
  ⟨by decide, by decide, by decide +kernel⟩

theorem scan_pair : pairDisk.scan ["src/..."] = .ok ["/src/a/A.java", "/src/b/B.java"] :=
  Disk.scan_listed (by decide +kernel)

/-- A run over these declarations reads both files. -/
theorem run_pair (outputDir archive : String) :
    run (pairConfig outputDir archive) "" false pairDisk = runScanned (pairConfig outputDir archive) ""
      pairDisk ["/src/a/A.java", "/src/b/B.java"]
      (Reader.fresh.extractAll pairDisk ["/src/a/A.java", "/src/b/B.java"]) := by
  have scanned : runScan (pairConfig outputDir archive) "" false pairDisk =
      .ok ["/src/a/A.java", "/src/b/B.java"] := by
    rw [runScan, pairConfig, scan_pair]
    rfl
  rw [run, scanned]

theorem ended_pair (outputDir archive : String) :
    (run (pairConfig outputDir archive) "" false pairDisk).failure = none := by
  rw [run_pair]
  exact (runScanned_eq rfl "" pairDisk _).1

theorem pointwise_pair :
    (pairConfig "gen" "q.jar").IsSeparate pairDisk ∧ (pairConfig "gen" "q.jar").allOrNothing = false ∧
    ∃ o, Runs (pairConfig "gen" "q.jar") "" false pairDisk o ∧ o.failure = none ∧
      ∃ files, pairDisk.scan ["src/..."] = .ok files ∧
        o.summary.IsPointwise (pairConfig "gen" "q.jar") pairDisk files := by
  have ended := ended_pair "gen" "q.jar"
  have runs := runs_run (pairConfig "gen" "q.jar") "" false pairDisk
  exact ⟨separate_pair, rfl, _, runs, ended, Runs.pointwise separate_pair rfl runs ended⟩

/-- The declaration in the first file. -/
def firstOfPair : Decoration := ⟨"A", "a", "p.P", [], [], "/src/a/A.java"⟩

/-- The declaration in the second file. -/
def secondOfPair : Decoration := ⟨"B", "b", "q.Q", [], [], "/src/b/B.java"⟩

/-- An archive that is named by a detour through the output directory. -/
def detourConfig : Config :=
  pairConfig "a/out" "a/../q.jar"

/-- The type of the first declaration has no supertypes, and that of the second is found once the unit of
the first is written, and not before. -/
theorem computed_pair :
    ((pairDisk.extractionOf "/src/a/A.java").value? = some firstOfPair ∧
      (pairDisk.extractionOf "/src/b/B.java").value? = some secondOfPair) ∧
    ((SourceLoader.sharing (Reader.fresh.extractAll pairDisk ["/src/b/B.java"]).reader
      detourConfig.sourcePath).library pairDisk).lacks secondOfPair.decorated = true ∧
    let loader := SourceLoader.sharing
      (Reader.fresh.extractAll pairDisk ["/src/a/A.java", "/src/b/B.java"]).reader detourConfig.sourcePath
    (loader.library pairDisk).IsBase firstOfPair.decorated ∧
    loader.declaresAfter detourConfig.output pairDisk firstOfPair secondOfPair.decorated = true := by
  decide +kernel

theorem extractionOf_pair :
    pairDisk.extractionOf "/src/a/A.java" = .present firstOfPair ∧
    pairDisk.extractionOf "/src/b/B.java" = .present secondOfPair := by
  obtain ⟨⟨first, second⟩, -⟩ := computed_pair
  exact ⟨Attempt.eq_present_of_value? first, Attempt.eq_present_of_value? second⟩

theorem late_in_detour :
    let loader := SourceLoader.sharing
      (Reader.fresh.extractAll pairDisk ["/src/a/A.java", "/src/b/B.java"]).reader detourConfig.sourcePath
    (loader.library pairDisk).IsBase firstOfPair.decorated ∧
    loader.declaresAfter detourConfig.output pairDisk firstOfPair secondOfPair.decorated = true :=
  computed_pair.2.2

/-- **A detour through the output directory** makes the files of a run depend on each other. The second
type is not found alone, and it is found when the first unit has made the directory on the way to it. -/
theorem detour_not_alone :
    pairDisk.IsTree ∧
    (∀ root ∈ detourConfig.sourcePath, pairDisk.Apart detourConfig.outputDir root) ∧
    detourConfig.allOrNothing = false ∧
    ∃ o, Runs detourConfig "" false pairDisk o ∧ o.failure = none ∧
      ∃ r ∈ o.summary.results, ¬r.IsAlone detourConfig pairDisk := by
  obtain ⟨failure, unfound, unresolved⟩ := Library.exists_of_lacks computed_pair.2.1
  refine ⟨separate_pair.tree, by decide +kernel, rfl, _, runs_run detourConfig "" false pairDisk,
    ended_pair _ _, ?_⟩
  exact not_isAlone_of_late rfl rfl extractionOf_pair.1 extractionOf_pair.2
    late_in_detour.1 late_in_detour.2 unfound unresolved (run_pair _ _)

end Forwarder
