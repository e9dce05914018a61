/-
**What a run makes.** The results of a run do not tell which units were made for them. Here each result
stands beside its unit, so that what a run writes and what it shows can be told from the same list.

* `Product` — what became of one file, with the unit that was made for it.
* `productsOf` — the products of declarations, one after the other.
* `generate_cases` — a declaration comes to a unit that is written or shown, or to nothing.
* `Runs.Making` — a run, with its products; `Runs.exists_making` — every run is one.
* `Runs.Making.results_eq` — the results of a run are those of its products.
* `unitFor?_eq` — the unit of a declaration is the one that it would have at the beginning.
* `Runs.Making.written` — all units of a run are written if they could be at the beginning.
-/

import Forwarder.Proofs.Batch.AllOrNothing
import Forwarder.Proofs.Forwarding.Coverage

namespace Forwarder

open Disk (Grown)

variable {config : Config} {d : Disk} {out : Output}

/-! ### Products -/

/-- What became of a file that holds something, and the unit that was made for it. -/
structure Product where
  result : FileResult
  unit? : Option GeneratedUnit

namespace Product

/-- The unit was written or shown. -/
def isDone (p : Product) : Bool :=
  p.result.failure.isNone

/-- The source of the unit. -/
def source (p : Product) : String :=
  (p.unit?.map (·.source)).getD ""

/-- The unit was made and has a path, but it could not be written there. -/
def IsUnwritten (out : Output) (p : Product) : Prop :=
  p.isDone = false ∧ ∃ u path, p.unit? = some u ∧ out.place u = .ok path

end Product

/-- The unit that a declaration is given. -/
def unitFor? (shop : Workshop) (decoration : Decoration) : Option GeneratedUnit :=
  match (shop.loader.load shop.disk false decoration.decorated).1 with
  | .error _ => none
  | .ok surface => (Forwarding.synthesize decoration (some surface)).toOption

/-- The product of a declaration. -/
def productOf (out : Output) (shop : Workshop) (path : String) (decoration : Decoration) : Product :=
  ⟨resultOf path decoration (generate out shop decoration).path, unitFor? shop decoration⟩

theorem isDone_resultOf (path : String) (decoration : Decoration) (output : Except Failure String)
    (unit? : Option GeneratedUnit) :
    (⟨resultOf path decoration output, unit?⟩ : Product).isDone = output.isOk := by
  cases output <;> rfl

/-- The products of declarations, one after the other. -/
def productsOf (out : Output) (shop : Workshop) : List (String × Attempt Decoration) → List Product
  | [] => []
  | (_, .empty) :: rest => productsOf out shop rest
  | (path, .failed failure) :: rest =>
    ⟨⟨path, "", "", "", some failure⟩, none⟩ :: productsOf out shop rest
  | (path, .present decoration) :: rest =>
    productOf out shop path decoration :: productsOf out (generate out shop decoration).shop rest

theorem results_generateAll (out : Output) (declared : List (String × Attempt Decoration)) :
    ∀ shop : Workshop,
      (generateAll out shop declared).results = (productsOf out shop declared).map (·.result) := by
  induction declared with
  | nil => exact fun _ => rfl
  | cons entry declared ih =>
    intro shop
    obtain ⟨path, attempt⟩ := entry
    cases attempt with
    | empty => exact ih shop
    | failed failure => exact congrArg (_ :: ·) (ih shop)
    | present decoration => exact congrArg (_ :: ·) (ih _)

/-- What became of a declaration without a unit: it failed, and nothing was written or shown. -/
structure Made.IsNothing (made : Made) (shop : Workshop) : Prop where
  path : ∃ failure, made.path = .error failure
  printed : made.printed = ""
  disk : made.shop.disk = shop.disk

/-- What became of a declaration with a unit: the unit was written or shown. -/
structure Made.IsUnit (made : Made) (out : Output) (shop : Workshop) (u : GeneratedUnit) : Prop where
  path : made.path = (out.write shop.disk u).path
  printed : made.printed = (out.write shop.disk u).printed
  disk : made.shop.disk = (out.write shop.disk u).disk

/-- **One declaration** comes to a unit, or to nothing. -/
theorem generate_cases (out : Output) (shop : Workshop) (decoration : Decoration) :
    (unitFor? shop decoration = none ∧ (generate out shop decoration).IsNothing shop) ∨
      ∃ u surface, unitFor? shop decoration = some u ∧
        Forwarding.synthesize decoration (some surface) = .ok u ∧
        (generate out shop decoration).IsUnit out shop u := by
  rw [generate, unitFor?]
  generalize shop.loader.load shop.disk false decoration.decorated = outcome
  obtain ⟨loaded, loader⟩ := outcome
  cases loaded with
  | error failure => exact .inl ⟨rfl, ⟨failure, rfl⟩, rfl, rfl⟩
  | ok surface =>
    dsimp only
    cases made : Forwarding.synthesize decoration (some surface) with
    | error failure => exact .inl ⟨rfl, ⟨_, rfl⟩, rfl, rfl⟩
    | ok u => exact .inr ⟨u, surface, rfl, made, rfl, rfl, rfl⟩

/-- A unit that is made, in closed form. -/
theorem eq_of_synthesize {decoration : Decoration} {surface : Surface} {u : GeneratedUnit}
    (made : Forwarding.synthesize decoration (some surface) = .ok u) :
    u = ⟨Forwarding.packageName decoration, decoration.implName,
      (Forwarding.unit decoration (Forwarding.overrides decoration surface)).render⟩ := by
  unfold Forwarding.synthesize at made
  split at made
  · simp only [Forwarding.mapM_method] at made
    split at made
    · cases made
      rfl
    · cases made
  · cases made

/-! ### Runs -/

/-- The products of a run, from what was extracted. A run that is stopped has one, the failure that
stopped it. -/
def productsDeclared (config : Config) (d : Disk) (extraction : Extraction) : List Product :=
  match stopping? config extraction.declared with
  | some (path, failure) => [⟨⟨path, "", "", "", some failure⟩, none⟩]
  | none => productsOf config.output
      ⟨.sharing extraction.reader config.descriptorDirs config.sourcePath, d⟩ extraction.declared

/-- A run may come to `o` and make these products. -/
def Runs.Making (config : Config) (runId : String) (cancelled : Bool) (d : Disk) (o : Outcome)
    (products : List Product) : Prop :=
  match runScan config runId cancelled d with
  | .error stopped => o = stopped ∧ products = []
  | .ok files => ∃ extraction, Pool.Yields config.workers d files extraction ∧
      o = runScanned config runId d files extraction ∧ products = productsDeclared config d extraction

namespace Runs

variable {runId : String} {cancelled : Bool} {o : Outcome} {products : List Product}

/-- Every run makes products. -/
theorem exists_making (runs : Runs config runId cancelled d o) :
    ∃ products, Making config runId cancelled d o products := by
  unfold Runs at runs
  unfold Making
  cases isScan : runScan config runId cancelled d with
  | error stopped =>
    rw [isScan] at runs
    exact ⟨[], runs, rfl⟩
  | ok files =>
    rw [isScan] at runs
    obtain ⟨extraction, yields, isRun⟩ := runs
    exact ⟨_, extraction, yields, isRun, rfl⟩

theorem Making.runs (making : Making config runId cancelled d o products) :
    Runs config runId cancelled d o := by
  unfold Making at making
  unfold Runs
  cases isScan : runScan config runId cancelled d with
  | error stopped =>
    rw [isScan] at making
    exact making.1
  | ok files =>
    rw [isScan] at making
    obtain ⟨extraction, yields, isRun, -⟩ := making
    exact ⟨extraction, yields, isRun⟩

/-- **The results of a run** are those of its products. -/
theorem Making.results_eq (making : Making config runId cancelled d o products) :
    o.summary.results = products.map (·.result) := by
  unfold Making runScan at making
  split at making
  · next stopped isScan =>
    obtain ⟨rfl, rfl⟩ := making
    split at isScan
    · cases isScan
      rfl
    · split at isScan
      · cases isScan
        rfl
      · cases isScan
  · obtain ⟨extraction, -, rfl, rfl⟩ := making
    rw [runScanned, runDeclared, productsDeclared]
    cases stopping? config extraction.declared with
    | some stop => rfl
    | none => exact results_generateAll _ _ _

end Runs

/-! ### Units -/

/-- The unit of a declaration, from the disk at the beginning. -/
def Disk.unitAt? (d : Disk) (config : Config) (decoration : Decoration) : Option GeneratedUnit :=
  match TypeLoader.atFirst d config.descriptorDirs config.sourcePath decoration.decorated with
  | .error _ => none
  | .ok surface => (Forwarding.synthesize decoration (some surface)).toOption

/-- **The unit of a declaration** depends on the beginning alone. -/
theorem unitFor?_eq (separate : config.IsSeparate d) {shop : Workshop} (faithful : shop.Faithful config d)
    {decoration : Decoration} (placeable : decoration.IsPlaceable) :
    unitFor? shop decoration = d.unitAt? config decoration := by
  have undisturbed : d.Undisturbed shop.disk config.sourcePath :=
    faithful.disk.undisturbed separate.tree separate.apart separate.upfront
  rw [unitFor?, Disk.unitAt?, (faithful.loader.load_eq undisturbed placeable.decorated).1]

/-- The unit of a file, if it holds a declaration. -/
def Disk.unitOf? (d : Disk) (config : Config) : Attempt Decoration → Option GeneratedUnit
  | .present decoration => d.unitAt? config decoration
  | _ => none

/-- The products are those of the entries, each at some time. -/
def Disk.Makes (d : Disk) (config : Config) (entries : List (String × Attempt Decoration))
    (products : List Product) : Prop :=
  List.Forall₂ (fun entry p => p.unit? = d.unitOf? config entry.2 ∧
    ∃ now, d.resultAt? config now entry.1 entry.2 = some p.result) entries products

/-- **The products of declarations** are those at the beginning. -/
theorem makes_productsOf (separate : config.IsSeparate d)
    (declared : List (String × Attempt Decoration))
    (placeable : ∀ entry ∈ declared, ∀ decoration, entry.2 = .present decoration →
      decoration.IsPlaceable) :
    ∀ shop : Workshop, shop.Faithful config d →
      d.Makes config (declared.filter fun entry => !entry.2.isEmpty)
        (productsOf config.output shop declared) := by
  induction declared with
  | nil => exact fun _ _ => .nil
  | cons entry declared ih =>
    intro shop faithful
    obtain ⟨first, others⟩ := List.forall_mem_cons.mp placeable
    obtain ⟨path, attempt⟩ := entry
    cases attempt with
    | empty => exact ih others shop faithful
    | failed failure => exact .cons ⟨rfl, 0, rfl⟩ (ih others shop faithful)
    | present decoration =>
      obtain ⟨output, still⟩ := generate_eq separate faithful (first decoration rfl)
      refine .cons ⟨unitFor?_eq separate faithful (first decoration rfl), shop.disk.clock, ?_⟩
        (ih others _ still)
      rw [Disk.resultAt?, productOf, output]

/-- The workshop of a run at its beginning. -/
theorem faithful_of_yields {workers : Int} {files : List String} {extraction : Extraction}
    (yields : Pool.Yields workers d files extraction) :
    Workshop.Faithful config d
      ⟨.sharing extraction.reader config.descriptorDirs config.sourcePath, d⟩ := by
  have genuine : extraction.reader.Genuine := by
    rw [Reader.Genuine, yields.2]
    exact List.forall_mem_nil _
  exact ⟨TypeLoader.faithful_sharing yields.declared_eq.2 genuine rfl _, Grown.refl _ d⟩

theorem isPlaceable_of_mem {files : List String} {entry : String × Attempt Decoration}
    (member : entry ∈ d.declaredIn files) {decoration : Decoration}
    (present : entry.2 = .present decoration) : decoration.IsPlaceable := by
  obtain ⟨path, -, rfl⟩ := List.mem_map.mp member
  exact isPlaceable_of_extractionOf present

/-! ### Units that can be written -/

/-- The unit of a declaration before it has a source. -/
def Decoration.blank (decoration : Decoration) : GeneratedUnit :=
  ⟨Forwarding.packageName decoration, decoration.implName, ""⟩

/-- **A unit that can be written at the beginning** can be written at any time, whatever its source. -/
theorem isOk_write {out : Output} {e : Disk} (grounded : d.IsGrounded)
    (grown : Grown (d.spot out.root) d e) {decoration : Decoration} (placeable : decoration.IsPlaceable)
    {surface : Surface} {u : GeneratedUnit}
    (made : Forwarding.synthesize decoration (some surface) = .ok u)
    (writable : (out.write d decoration.blank).path.isOk = true) :
    (out.write e u).path.isOk = true := by
  have free := slash_not_mem_of_synthesize placeable made
  have alike : AlikeResult (out.write (d.atClock d.clock) u).path (out.write (d.atClock e.clock) u).path :=
    Output.write_atClock grounded free d.clock e.clock
  have isUnit := eq_of_synthesize made
  have sameNow : d.atClock d.clock = d := rfl
  have blank : (out.write d u).path = (out.write d decoration.blank).path :=
    Output.path_write_congr (congrArg (·.packageName) isUnit) (congrArg (·.className) isUnit) d
  rw [Output.write_eq grown grounded free]
  rw [sameNow, blank] at alike
  exact alike.isOk writable

/-- If all units can be written at the beginning, none is left unwritten. -/
theorem not_isUnwritten_of_writable {out : Output} (grounded : d.IsGrounded)
    (declared : List (String × Attempt Decoration))
    (placeable : ∀ entry ∈ declared, ∀ decoration, entry.2 = .present decoration →
      decoration.IsPlaceable)
    (writable : ∀ entry ∈ declared, ∀ decoration, entry.2 = .present decoration →
      (out.write d decoration.blank).path.isOk = true) :
    ∀ shop : Workshop, Grown (d.spot out.root) d shop.disk →
      ∀ p ∈ productsOf out shop declared, ¬p.IsUnwritten out := by
  induction declared with
  | nil => exact fun _ _ => List.forall_mem_nil _
  | cons entry declared ih =>
    intro shop grown
    obtain ⟨first, others⟩ := List.forall_mem_cons.mp placeable
    obtain ⟨here, rest⟩ := List.forall_mem_cons.mp writable
    obtain ⟨path, attempt⟩ := entry
    cases attempt with
    | empty => exact ih others rest shop grown
    | failed failure =>
      exact List.forall_mem_cons.mpr ⟨fun ⟨_, _, _, isUnit, _⟩ => (by cases isUnit),
        ih others rest shop grown⟩
    | present decoration =>
      rcases generate_cases out shop decoration with ⟨nothing, failed⟩ | ⟨u, _, isUnit, made, written⟩
      · refine List.forall_mem_cons.mpr ⟨fun ⟨_, _, _, isUnit, _⟩ => ?_,
          ih others rest _ (failed.disk ▸ grown)⟩
        rw [productOf, nothing] at isUnit
        cases isUnit
      · have done := isOk_write grounded grown (first decoration rfl) made (here decoration rfl)
        have free := slash_not_mem_of_synthesize (first decoration rfl) made
        refine List.forall_mem_cons.mpr ⟨fun ⟨failed, _⟩ => ?_,
          ih others rest _ (written.disk ▸ Output.grown_write grown grounded free)⟩
        rw [productOf, isDone_resultOf, written.path, done] at failed
        cases failed

/-- A run whose units can be written at the beginning leaves none of them unwritten. -/
theorem Runs.Making.written {runId : String} {cancelled : Bool} {o : Outcome} {products : List Product}
    (making : Making config runId cancelled d o products) (grounded : d.IsGrounded)
    (writable : ∀ files, d.scan config.sourceDirs = .ok files → ∀ entry ∈ d.declaredIn files,
      ∀ decoration, entry.2 = .present decoration →
        (config.output.write d decoration.blank).path.isOk = true) :
    ∀ p ∈ products, ¬p.IsUnwritten config.output := by
  have scanned := runScan_cases config runId cancelled d
  unfold Making at making
  cases isScan : runScan config runId cancelled d with
  | error stopped =>
    rw [isScan] at making
    rw [making.2]
    exact List.forall_mem_nil _
  | ok files =>
    rw [isScan] at making scanned
    obtain ⟨extraction, yields, -, rfl⟩ := making
    have isDeclared : extraction.declared = d.declaredIn files := yields.declared_eq.1
    rw [productsDeclared, isDeclared]
    cases stopping? config (d.declaredIn files) with
    | some stop => exact List.forall_mem_singleton.mpr fun ⟨_, _, _, isUnit, _⟩ => (by cases isUnit)
    | none =>
      exact not_isUnwritten_of_writable grounded _ (fun _ member _ => isPlaceable_of_mem member)
        (writable files scanned) _ (Grown.refl _ d)

end Forwarder
