/-
**Runs that come to their end.** A run that ends without a failure has found its files and was not stopped,
and then it has gone through all declarations. What it made and what it left follows from that.

* `stopping?_of_filter` — files without a declaration do not stop a run.
* `Disk.Completes` — a run that has come to its end, with the products of its declarations.
* `Runs.Making.completes` — a run without a failure has come to its end.
* `Runs.Making.completes_of_scan` — so has one whose files can be found, and of which none stops it.
* **`Disk.Completes.content`** — the files after the run; `Completes.spot_output` — where its units are.
* `Runs.exists_single`, `Runs.exists_written` — runs with a single declaration.
-/

import Forwarder.Proofs.Batch.AllOrNothing
import Forwarder.Proofs.Batch.Overwriting

namespace Forwarder

open Disk (Grown)

variable {config : Config} {d : Disk}

/-! ### Coming to the end -/

section Filter

variable {declared others : List (String × Attempt Decoration)}

theorem Attempt.join_filter (declared : List (String × Attempt Decoration)) :
    join ((declared.filter fun entry => !entry.2.isEmpty).map (·.2)) = join (declared.map (·.2)) := by
  induction declared with
  | nil => rfl
  | cons entry declared ih =>
    obtain ⟨path, attempt⟩ := entry
    cases attempt with
    | empty => rw [List.filter_cons_of_neg (by exact Bool.false_ne_true), ih, List.map_cons, join]
    | failed failure => rw [List.filter_cons_of_pos rfl, List.map_cons, List.map_cons, join, join]
    | present value => rw [List.filter_cons_of_pos rfl, List.map_cons, List.map_cons, join, join, ih]

/-- Files without a declaration do not stop a run. -/
theorem stopping?_of_filter (same : (others.filter fun entry => !entry.2.isEmpty) =
      declared.filter fun entry => !entry.2.isEmpty)
    (goesOn : stopping? config declared = none) : stopping? config others = none := by
  rw [stopping?] at goesOn ⊢
  rw [← Attempt.join_filter, same, Attempt.join_filter]
  cases whole : config.allOrNothing with
  | false => rfl
  | true =>
    rw [whole, if_pos rfl] at goesOn
    rw [if_pos rfl]
    cases joined : Attempt.join (declared.map (·.2)) with
    | failed failure => rw [joined] at goesOn; cases goesOn
    | present values => rfl
    | empty => rfl

end Filter

/-- A run that has found its files, was not stopped by a rejected one, and came to its end. -/
structure Disk.Completes (d : Disk) (config : Config) (files : List String) (shop : Workshop)
    (o : Outcome) (products : List Product) : Prop where
  scanned : d.scan config.sourceDirs = .ok files
  goesOn : stopping? config (d.declaredIn files) = none
  atStart : shop.disk = d
  faithful : shop.Faithful config d
  made : products = productsOf config.output shop (d.declaredIn files)
  failure : o.failure = none
  counted : ∃ s : Summary, o.summary = s.withResults (products.map (·.result)) ∧
    s.candidates = ((d.declaredIn files).filter fun entry => !entry.2.isEmpty).length
  disk : o.disk = (generateAll config.output shop (d.declaredIn files)).shop.disk

namespace Runs

variable {runId : String} {cancelled : Bool} {o : Outcome} {products : List Product}

theorem completes_runScanned {files : List String} {extraction : Extraction}
    (scanned : d.scan config.sourceDirs = .ok files)
    (yields : Pool.Yields config.workers d files extraction)
    (goesOn : stopping? config (d.declaredIn files) = none) :
    d.Completes config files
      ⟨.sharing extraction.reader config.descriptorDirs config.sourcePath, d⟩
      (runScanned config runId d files extraction) (productsDeclared config d extraction) := by
  have isDeclared : extraction.declared = d.declaredIn files := yields.declared_eq.1
  have isProducts : productsDeclared config d extraction = productsOf config.output
      ⟨.sharing extraction.reader config.descriptorDirs config.sourcePath, d⟩ (d.declaredIn files) := by
    rw [productsDeclared, isDeclared, goesOn]
  have isRun (s : Summary) : runDeclared config d s extraction = runExtracted config d s extraction := by
    rw [runDeclared, isDeclared, goesOn]
  refine ⟨scanned, goesOn, rfl, faithful_of_yields yields, isProducts, ?_,
    ⟨{ Summary.start runId with
        scanned := files.length
        candidates := ((d.declaredIn files).filter fun entry => !entry.2.isEmpty).length }, ?_, rfl⟩, ?_⟩
  · rw [runScanned, isRun]
    rfl
  · rw [runScanned, isRun, isProducts, runExtracted, isDeclared, ← results_generateAll]
    rfl
  · rw [runScanned, isRun, runExtracted, isDeclared]
    rfl

/-- A run without a failure has come to its end. -/
theorem Making.completes (making : Making config runId cancelled d o products) (ended : o.failure = none) :
    ∃ files shop, d.Completes config files shop o products := by
  have scan := runScan_cases config runId cancelled d
  unfold Making at making
  cases isScan : runScan config runId cancelled d with
  | error stopped =>
    rw [isScan] at making scan
    exact absurd (making.1 ▸ ended) scan
  | ok files =>
    rw [isScan] at making scan
    obtain ⟨extraction, yields, rfl, rfl⟩ := making
    have isDeclared : extraction.declared = d.declaredIn files := yields.declared_eq.1
    refine ⟨files, _, completes_runScanned scan yields ?_⟩
    rw [runScanned, runDeclared, isDeclared] at ended
    cases goesOn : stopping? config (d.declaredIn files) with
    | none => rfl
    | some stop =>
      rw [goesOn] at ended
      cases ended

/-- A run that is not called off comes to its end if its files can be found and none of them stops it. -/
theorem Making.completes_of_scan (making : Making config runId false d o products) {files : List String}
    (scanned : d.scan config.sourceDirs = .ok files)
    (goesOn : stopping? config (d.declaredIn files) = none) :
    ∃ shop, d.Completes config files shop o products := by
  have isScan : runScan config runId false d = .ok files := by
    rw [runScan, scanned]
    rfl
  unfold Making at making
  rw [isScan] at making
  obtain ⟨extraction, yields, rfl, rfl⟩ := making
  exact ⟨_, completes_runScanned scanned yields goesOn⟩

end Runs

/-- Without a unit nothing is written. -/
theorem disk_of_unitless {out : Output} (declared : List (String × Attempt Decoration)) :
    ∀ shop : Workshop, (∀ p ∈ productsOf out shop declared, p.unit? = none) →
      (generateAll out shop declared).shop.disk = shop.disk := by
  induction declared with
  | nil => exact fun _ _ => rfl
  | cons entry declared ih =>
    intro shop unitless
    obtain ⟨path, attempt⟩ := entry
    cases attempt with
    | empty => exact ih shop unitless
    | failed failure => exact ih shop (List.forall_mem_cons.mp unitless).2
    | present decoration =>
      obtain ⟨first, others⟩ := List.forall_mem_cons.mp unitless
      rcases generate_cases out shop decoration with ⟨-, nothing⟩ | ⟨u, _, isUnit, -, -⟩
      · exact (ih _ others).trans nothing.disk
      · exact absurd (isUnit.symm.trans first) (Option.some_ne_none u)

/-! ### What is left -/

namespace Disk.Completes

variable {files : List String} {shop : Workshop} {o : Outcome} {products : List Product}
  (completes : d.Completes config files shop o products)

include completes

theorem grown (grounded : d.IsGrounded) : Grown (d.spot config.outputDir) d o.disk := by
  have start : Grown (d.spot config.output.root) d shop.disk := completes.faithful.disk
  have grown := grown_generateAll grounded (d.declaredIn files)
    (fun _ member _ => isPlaceable_of_mem member) shop start
  rwa [← completes.disk] at grown

theorem isProper (wet : config.dryRun = false) (proper : d.IsProper) : o.disk.IsProper := by
  rw [completes.disk]
  exact isProper_generateAll wet _ (fun _ member _ => isPlaceable_of_mem member) shop
    (completes.atStart ▸ proper)

/-- The files after the run. -/
theorem content (wet : config.dryRun = false) (grounded : d.IsGrounded) (place : Place) :
    (o.disk.file? place).map (·.content) =
      ((lastText? config.output d place products).map .text).or ((d.file? place).map (·.content)) := by
  rw [completes.disk, completes.made, content_generateAll wet grounded _
    (fun _ member _ => isPlaceable_of_mem member) place shop completes.faithful.disk, completes.atStart]

theorem settled (wet : config.dryRun = false) (grounded : d.IsGrounded) :
    IsSettled config.output o.disk products := by
  rw [completes.disk, completes.made]
  exact settled_generateAll wet grounded _ (fun _ member _ => isPlaceable_of_mem member) shop
    completes.faithful.disk

theorem makes (separate : config.IsSeparate d) :
    d.Makes config ((d.declaredIn files).filter fun entry => !entry.2.isEmpty) products := by
  rw [completes.made]
  exact makes_productsOf separate _ (fun _ member _ => isPlaceable_of_mem member) shop completes.faithful

/-- The path of a unit that was written names the place of the unit. -/
theorem spot_output (wet : config.dryRun = false) (grounded : d.IsGrounded) {p : Product}
    (member : p ∈ products) (done : p.isDone = true) {u : GeneratedUnit} (isUnit : p.unit? = some u) :
    o.disk.spot p.result.output = config.output.target d u := by
  have isMade := completes.made ▸ member
  have placeable : ∀ entry ∈ d.declaredIn files, ∀ decoration, entry.2 = .present decoration →
      decoration.IsPlaceable := fun _ isEntry _ => isPlaceable_of_mem isEntry
  obtain ⟨-, -, v, -, -, places⟩ := made_productsOf wet _ placeable shop p isMade done
  obtain rfl : u = v := Option.some.inj (isUnit.symm.trans places.unit)
  rw [completes.disk]
  exact (Disk.spot_of_place
    (place_of_done wet grounded _ placeable shop completes.faithful.disk p isMade done u places)).symm

end Disk.Completes

/-! ### A single declaration -/

section Single

variable {path : String} {decoration : Decoration}

/-- What a run comes to that finds one declaration. -/
theorem Runs.exists_single (config : Config) (scanned : d.scan config.sourceDirs = .ok [path])
    (partially : config.allOrNothing = false) (undescribed : config.descriptorDirs = [])
    (declared : d.extractionOf path = .present decoration) :
    ∃ o, Runs config "" false d o ∧ o.failure = none ∧
      let shop := ⟨.sharing (Reader.fresh.extractAll d [path]).reader [] config.sourcePath, d⟩
      o.summary.results = [resultOf path decoration (generate config.output shop decoration).path] ∧
      o.disk = (generate config.output shop decoration).shop.disk := by
  have isScan : runScan config "" false d = .ok [path] := by
    rw [runScan, scanned]
    rfl
  have isList : d.declaredIn [path] = [(path, .present decoration)] := by
    rw [Disk.declaredIn, List.map_singleton, declared]
  have completes : d.Completes config [path] _ (runScanned config "" d [path] _) _ :=
    completes_runScanned scanned (Pool.yields_extractAll config.workers d [path])
      (stopping?_of_partially partially _)
  obtain ⟨failure, results⟩ := runScanned_eq partially "" d [path]
  refine ⟨run config "" false d, runs_run config "" false d, ?_⟩
  rw [run, isScan]
  dsimp only
  refine ⟨failure, ?_, ?_⟩
  · rw [results, isList, undescribed]
    rfl
  · rw [completes.disk, isList, undescribed]
    rfl

/-- If the type of the declaration has no supertypes, its unit can be computed and checked. -/
theorem Runs.exists_written (config : Config) (check : GeneratedUnit → Bool)
    (scanned : d.scan config.sourceDirs = .ok [path])
    (partially : config.allOrNothing = false) (undescribed : config.descriptorDirs = [])
    (declared : d.extractionOf path = .present decoration)
    (computed : ((SourceLoader.sharing (Reader.fresh.extractAll d [path]).reader config.sourcePath).library
        d).IsBase decoration.decorated ∧
      (((SourceLoader.sharing (Reader.fresh.extractAll d [path]).reader config.sourcePath).loadOwn
        d decoration.decorated).1.toOption.any fun s =>
          (Forwarding.synthesize decoration (some s)).toOption.any check) = true) :
    ∃ o u, Runs config "" false d o ∧ o.failure = none ∧ check u = true ∧
      o.summary.results = [resultOf path decoration (config.output.write d u).path] ∧
      o.disk = (config.output.write d u).disk := by
  obtain ⟨o, runs, ended, results, disk⟩ := exists_single config scanned partially undescribed declared
  obtain ⟨base, computed⟩ := computed
  rw [generate, TypeLoader.load_sharing base] at results disk
  generalize (SourceLoader.sharing (Reader.fresh.extractAll d [path]).reader config.sourcePath).loadOwn d
    decoration.decorated = outcome at computed results disk
  obtain ⟨result, l⟩ := outcome
  cases result with
  | error failure => cases computed
  | ok s =>
    dsimp only at results disk
    cases made : Forwarding.synthesize decoration (some s) with
    | error failure =>
      have none_ : (Forwarding.synthesize decoration (some s)).toOption.any check = true := computed
      rw [made] at none_
      cases none_
    | ok u =>
      have checked : (Forwarding.synthesize decoration (some s)).toOption.any check = true := computed
      rw [made] at checked results disk
      exact ⟨o, u, runs, ended, checked, results, disk⟩

end Single

end Forwarder
