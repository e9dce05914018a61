/-
**What the files of a run hold.** The path of a unit depends on the package and the name of its class
alone, and a run writes every unit that it makes. So a file holds the source of the last unit that was
written to it, and two declarations of one class in different files write to the same one.

* `lastText?_of_last`, `holds_generateAll` — the last unit that is written to a path is what it leads to.
* `Disk.HoldsLast` — every file holds the last source that was written to it.
* `HoldsLast.own_iff` — all units are left in their files if none shares its path with another.
* **`Runs.holds_last`** — what the files of a run hold.
* `HoldsLast.exists_clash`, `twin_overwritten` — the unit of one declaration is lost to that of another.
-/

import Forwarder.Proofs.Batch.Contents

namespace Forwarder

open Disk (Grown)
open SourceLoader (diskOf)

variable {config : Config} {d e : Disk} {out : Output} {u v : GeneratedUnit}

/-! ### All units -/

/-- No product that comes later is left at the path of this one. -/
theorem lastText?_of_last {products before after : List Product} {p : Product}
    (split : products = before ++ p :: after) (done : p.isDone = true) (places : p.Places out u)
    (placed : ∀ q ∈ after, q.isDone = true → ∃ v, q.Places out v)
    (last : ∀ q ∈ after, q.isDone = true → q.result.output ≠ p.result.output) :
    lastText? out d (out.target d u) products = some p.source := by
  have later : lastText? out d (out.target d u) after = none := by
    refine lastText?_eq_none.mpr fun q member => Option.eq_none_iff_forall_ne_some.mpr fun text left => ?_
    obtain ⟨isDone, v, isUnit, same, -⟩ := Product.textAt?_eq_some.mp left
    obtain ⟨w, other⟩ := placed q member isDone
    obtain rfl : v = w := Option.some.inj (isUnit.symm.trans other.unit)
    exact last q member isDone (by rw [other.output, places.output, Output.pathOf_of_target same])
  have here : p.textAt? out d (out.target d u) = some p.source :=
    Product.textAt?_eq_some.mpr ⟨done, u, places.unit, rfl, places.source.symm⟩
  rw [split, lastText?_append, lastText?, later, here]
  rfl

/-- The path of a product that is done leads to its place. -/
theorem place_of_done (wet : out.dryRun = false) (grounded : d.IsGrounded)
    (declared : List (String × Attempt Decoration))
    (placeable : ∀ entry ∈ declared, ∀ decoration, entry.2 = .present decoration →
      decoration.IsPlaceable) :
    ∀ shop : Workshop, Grown (d.spot out.root) d shop.disk →
      ∀ p ∈ productsOf out shop declared, p.isDone = true → ∀ u, p.Places out u →
        (generateAll out shop declared).shop.disk.place p.result.output = .ok (out.target d u) := by
  induction declared with
  | nil => exact fun _ _ => List.forall_mem_nil _
  | cons entry declared ih =>
    intro shop grown
    obtain ⟨first, others⟩ := List.forall_mem_cons.mp placeable
    obtain ⟨source, attempt⟩ := entry
    cases attempt with
    | empty => exact ih others shop grown
    | failed failure =>
      exact List.forall_mem_cons.mpr ⟨fun done => (by cases done), ih others shop grown⟩
    | present decoration =>
      have grown' := grown_generate grounded grown (first decoration rfl)
      refine List.forall_mem_cons.mpr ⟨fun done u places => ?_, ih others _ grown'⟩
      obtain ⟨v, _, -, places', wrote, written⟩ := places_productOf wet (first decoration rfl) done
      obtain rfl : u = v := Option.some.inj (places.unit.symm.trans places'.unit)
      obtain ⟨_, isAt, -⟩ := Output.fileAt_write wet places.free (grown.isGrounded grounded) wrote
      rw [Output.target_of_cwd grown.cwd, ← written] at isAt
      exact place_generateAll grounded declared others grown' isAt.1

/-- **The last unit that is written to a path** is what the path leads to. -/
theorem holds_generateAll (wet : out.dryRun = false) (grounded : d.IsGrounded)
    (declared : List (String × Attempt Decoration))
    (placeable : ∀ entry ∈ declared, ∀ decoration, entry.2 = .present decoration →
      decoration.IsPlaceable)
    (shop : Workshop) (grown : Grown (d.spot out.root) d shop.disk) {before after : List Product}
    {p : Product} (split : productsOf out shop declared = before ++ p :: after) (done : p.isDone = true)
    (last : ∀ q ∈ after, q.isDone = true → q.result.output ≠ p.result.output) :
    (generateAll out shop declared).shop.disk.readFile p.result.output = .ok p.source := by
  have placed : ∀ q ∈ p :: after, q.isDone = true → ∃ v, q.Places out v := by
    intro q member isDone
    obtain ⟨_, _, v, -, -, places⟩ := made_productsOf wet declared placeable shop q
      (split ▸ List.mem_append_right _ member) isDone
    exact ⟨v, places⟩
  obtain ⟨u, places⟩ := placed p List.mem_cons_self done
  have content := content_generateAll wet grounded declared placeable (out.target d u) shop grown
  rw [lastText?_of_last split done places (fun q member => placed q (List.mem_cons_of_mem _ member)) last,
    Option.map_some, Option.some_or, Option.map_eq_some_iff] at content
  obtain ⟨file, isFile, isText⟩ := content
  have leads := place_of_done wet grounded declared placeable shop grown p
    (split ▸ List.mem_append_right _ List.mem_cons_self) done u places
  have isAt : (generateAll out shop declared).shop.disk.FileAt p.result.output (out.target d u) file :=
    ⟨leads, isFile⟩
  rw [isAt.readFile, isText]
  rfl

/-! ### Runs -/

/-- Of the units that a run writes to one path, the file there holds the last. -/
structure Disk.HoldsLast (d e : Disk) (out : Output) (products : List Product) : Prop where
  /-- A unit that is written was made from the declaration in its own file. -/
  made : ∀ p ∈ products, p.isDone = true → ∃ decoration surface u,
    (Reader.fresh.extract d p.result.path).1 = .present decoration ∧
      Forwarding.synthesize decoration (some surface) = .ok u ∧ p.Places out u
  /-- No unit that comes after it in the same place leaves it in its file. -/
  last : ∀ before p after, products = before ++ p :: after → p.isDone = true →
    (∀ q ∈ after, q.isDone = true → q.result.output ≠ p.result.output) →
    e.readFile p.result.output = .ok p.source

namespace Disk.HoldsLast

variable {products : List Product}

/-- Every file that was written holds the source of some unit that was written there. -/
theorem exists_last (holds : d.HoldsLast e out products) {p : Product} (member : p ∈ products)
    (done : p.isDone = true) : ∃ q ∈ products, q.isDone = true ∧ q.result.output = p.result.output ∧
      e.readFile p.result.output = .ok q.source := by
  have found : ∃ q, IsFirst (fun q : Product => q.isDone = true ∧ q.result.output = p.result.output)
      products.reverse q := exists_isFirst ⟨p, List.mem_reverse.mpr member, done, rfl⟩
  obtain ⟨q, ⟨isDone, same⟩, before, after, split, none_⟩ := found
  have split' : products = after.reverse ++ q :: before.reverse := by
    rw [← List.reverse_reverse products, split, List.reverse_append, List.reverse_cons,
      List.append_assoc, List.singleton_append]
  refine ⟨q, split' ▸ List.mem_append_right _ List.mem_cons_self, isDone, same, ?_⟩
  rw [← same]
  exact holds.last _ q _ split' isDone fun other isLater otherDone sameOutput =>
    none_ other (List.mem_reverse.mp isLater) ⟨otherDone, sameOutput.trans same⟩

/-- **All units are left in their files** exactly if none shares its path with a different one. -/
theorem own_iff (holds : d.HoldsLast e out products) :
    (∀ p ∈ products, p.isDone = true → e.readFile p.result.output = .ok p.source) ↔
      ∀ p ∈ products, ∀ q ∈ products, p.isDone = true → q.isDone = true →
        p.result.output = q.result.output → p.source = q.source := by
  constructor
  · intro own p member q other done otherDone same
    exact Except.ok.inj ((own p member done).symm.trans (same ▸ own q other otherDone))
  · intro alike p member done
    obtain ⟨q, other, otherDone, same, held⟩ := holds.exists_last member done
    rw [held, alike q other p member otherDone done same]

end Disk.HoldsLast

/-- What the files of a run hold. -/
theorem Runs.Making.holdsLast {runId : String} {cancelled : Bool} {o : Outcome} {products : List Product}
    (making : Making config runId cancelled d o products) (wet : config.dryRun = false)
    (grounded : d.IsGrounded) : d.HoldsLast o.disk config.output products := by
  unfold Making at making
  cases isScan : runScan config runId cancelled d with
  | error stopped =>
    rw [isScan] at making
    obtain ⟨-, rfl⟩ := making
    exact ⟨List.forall_mem_nil _, fun before p after split => by simp at split⟩
  | ok files =>
    rw [isScan] at making
    obtain ⟨extraction, yields, rfl, rfl⟩ := making
    have isDeclared : extraction.declared = d.declaredIn files := yields.declared_eq.1
    have placeable : ∀ entry ∈ extraction.declared, ∀ decoration, entry.2 = .present decoration →
        decoration.IsPlaceable := by
      rw [isDeclared]
      exact fun _ member _ => isPlaceable_of_mem member
    rw [productsDeclared, runScanned, runDeclared]
    cases stopping? config extraction.declared with
    | some stop =>
      refine ⟨List.forall_mem_singleton.mpr fun done => (by cases done),
        fun before p after split done => ?_⟩
      have isHere : p ∈ [_] := split ▸ List.mem_append_right before List.mem_cons_self
      rw [List.mem_singleton.mp isHere] at done
      cases done
    | none =>
      refine ⟨fun p member done => ?_, fun before p after =>
        holds_generateAll wet grounded _ placeable _ (Grown.refl _ d)⟩
      obtain ⟨decoration, surface, u, isEntry, made⟩ :=
        made_productsOf wet _ placeable _ p member done
      refine ⟨decoration, surface, u, ?_, made⟩
      rw [isDeclared, Disk.declaredIn] at isEntry
      obtain ⟨path, -, same⟩ := List.mem_map.mp isEntry
      rw [extract_eq, ← (Prod.mk.inj same).1]
      exact (Prod.mk.inj same).2

/-- **The files of a run.** Each unit that a run writes was made from the declaration in its own file, and
the file at its path holds the last unit that was written there: its own, unless a later one has the same
path. So all units are left in their files exactly if none shares its path with a different one. -/
theorem Runs.holds_last (wet : config.dryRun = false) (grounded : d.IsGrounded) {runId : String}
    {cancelled : Bool} {o : Outcome} (runs : Runs config runId cancelled d o) :
    ∃ products, Making config runId cancelled d o products ∧
      o.summary.results = products.map (·.result) ∧ d.HoldsLast o.disk config.output products ∧
      ((∀ p ∈ products, p.isDone = true → o.disk.readFile p.result.output = .ok p.source) ↔
        ∀ p ∈ products, ∀ q ∈ products, p.isDone = true → q.isDone = true →
          p.result.output = q.result.output → p.source = q.source) := by
  obtain ⟨products, making⟩ := runs.exists_making
  have holds := making.holdsLast wet grounded
  exact ⟨products, making, making.results_eq, holds, holds.own_iff⟩

theorem holds_last_pair :
    (pairConfig "gen" "q.jar").dryRun = false ∧ pairDisk.IsGrounded ∧
    ∃ o, Runs (pairConfig "gen" "q.jar") "" false pairDisk o ∧ o.failure = none ∧
      ∃ products, Runs.Making (pairConfig "gen" "q.jar") "" false pairDisk o products ∧
        o.summary.results = products.map (·.result) ∧
        pairDisk.HoldsLast o.disk (pairConfig "gen" "q.jar").output products := by
  have grounded : pairDisk.IsGrounded := separate_pair.tree.isGrounded
  have ended : (run (pairConfig "gen" "q.jar") "" false pairDisk).failure = none :=
    Option.isNone_iff_eq_none.mp (by decide)
  have runs := runs_run (pairConfig "gen" "q.jar") "" false pairDisk
  obtain ⟨products, making, results, holds, -⟩ := Runs.holds_last rfl grounded runs
  exact ⟨rfl, grounded, _, runs, ended, products, making, results, holds⟩

/-! ### Units with one path -/

/-- The unit of a declaration whose type has no supertypes. -/
def Disk.ownUnit? (d : Disk) (roots : List String) (decoration : Decoration) : Option GeneratedUnit :=
  ((SourceLoader.ofRoots roots).loadOwn d decoration.decorated).1.toOption.bind fun s =>
    (Forwarding.synthesize decoration (some s)).toOption

theorem unitAt?_of_base (undescribed : config.descriptorDirs = []) {decoration : Decoration}
    (base : ((SourceLoader.ofRoots config.sourcePath).library d).IsBase decoration.decorated) :
    d.unitAt? config decoration = d.ownUnit? config.sourcePath decoration := by
  rw [Disk.unitAt?, Disk.ownUnit?, undescribed, TypeLoader.atFirst_of_base base]
  cases ((SourceLoader.ofRoots config.sourcePath).loadOwn d decoration.decorated).1 <;> rfl

theorem eq_of_unitAt? {decoration : Decoration} (isUnit : d.unitAt? config decoration = some u) :
    u.packageName = Forwarding.packageName decoration ∧ u.className = decoration.implName := by
  rw [Disk.unitAt?] at isUnit
  split at isUnit
  · cases isUnit
  · next surface _ =>
    cases made : Forwarding.synthesize decoration (some surface) with
    | error failure =>
      rw [made] at isUnit
      cases isUnit
    | ok v =>
      rw [made] at isUnit
      obtain rfl : v = u := Option.some.inj isUnit
      rw [eq_of_synthesize made]
      exact ⟨rfl, rfl⟩

/-- A unit that has a path and is not left unwritten is done. -/
theorem Product.isDone_of_unit {p : Product} (isUnit : p.unit? = some u) {path : String}
    (placed : out.place u = .ok path) (written : ¬p.IsUnwritten out) : p.isDone = true := by
  by_contra failed
  exact written ⟨Bool.eq_false_iff.mpr failed, u, path, isUnit, placed⟩

/-- A declaration has its product. -/
theorem Disk.Makes.exists_of_mem {entries : List (String × Attempt Decoration)} {products : List Product}
    (makes : d.Makes config entries products) {entry : String × Attempt Decoration}
    (member : entry ∈ entries) : ∃ p ∈ products, p.unit? = d.unitOf? config entry.2 := by
  induction makes with
  | nil => cases member
  | cons same _ ih =>
    rcases List.mem_cons.mp member with rfl | member
    · exact ⟨_, List.mem_cons_self, same.1⟩
    · obtain ⟨p, isProduct, isUnit⟩ := ih member
      exact ⟨p, List.mem_cons_of_mem _ isProduct, isUnit⟩

/-- The product of a declaration whose unit has a path is done, and its output is that path. -/
theorem Disk.HoldsLast.exists_product {products : List Product}
    (holds : d.HoldsLast e config.output products) {entries : List (String × Attempt Decoration)}
    (makes : d.Makes config entries products) (written : ∀ p ∈ products, ¬p.IsUnwritten config.output)
    {path place : String} {decoration : Decoration} (isEntry : (path, .present decoration) ∈ entries)
    (isUnit : d.unitAt? config decoration = some u)
    (placed : config.output.place decoration.blank = .ok place) :
    ∃ p ∈ products, p.isDone = true ∧ p.source = u.source ∧
      p.result.output = config.output.pathOf decoration.blank := by
  obtain ⟨p, isProduct, ofEntry⟩ := makes.exists_of_mem isEntry
  have isUnit' : p.unit? = some u := ofEntry.trans isUnit
  obtain ⟨samePackage, sameClass⟩ := eq_of_unitAt? isUnit
  have samePlace : config.output.place u = .ok place :=
    (Output.place_congr samePackage sameClass).trans placed
  have done := Product.isDone_of_unit isUnit' samePlace (written p isProduct)
  obtain ⟨-, -, other, -, -, places⟩ := holds.made p isProduct done
  obtain rfl : u = other := Option.some.inj (isUnit'.symm.trans places.unit)
  exact ⟨p, isProduct, done, places.source, places.output.trans (Output.pathOf_congr samePackage sameClass)⟩

/-- **Two declarations of one class** have units with one path. -/
theorem Disk.HoldsLast.exists_clash {products : List Product}
    (holds : d.HoldsLast e config.output products) {entries : List (String × Attempt Decoration)}
    (makes : d.Makes config entries products) (written : ∀ p ∈ products, ¬p.IsUnwritten config.output)
    {first second : String} {one other : Decoration} (isOne : (first, .present one) ∈ entries)
    (isOther : (second, .present other) ∈ entries) (isUnit : d.unitAt? config one = some u)
    (isSecond : d.unitAt? config other = some v) (same : one.blank = other.blank)
    (placed : (config.output.place one.blank).isOk = true) :
    ∃ p ∈ products, ∃ q ∈ products, p.isDone = true ∧ q.isDone = true ∧
      p.result.output = q.result.output ∧ p.source = u.source ∧ q.source = v.source := by
  cases place : config.output.place one.blank with
  | error failure =>
    rw [place] at placed
    cases placed
  | ok path =>
    obtain ⟨p, isProduct, done, source, output⟩ := holds.exists_product makes written isOne isUnit place
    obtain ⟨q, isProduct', done', source', output'⟩ :=
      holds.exists_product makes written isOther isSecond (same ▸ place)
    exact ⟨p, isProduct, q, isProduct', done, done', by rw [output, output', same], source, source'⟩

/-- Two declarations of the class `A` in the package `p`, which decorate different types. -/
def twinDisk : Disk :=
  diskOf [(["src", "a"], "A", "package p; import x.X; class A implements Decorator<X> \x7b\x7d"),
    (["src", "b"], "A", "package p; import y.Y; class A implements Decorator<Y> \x7b\x7d"),
    (["lib", "x"], "X", "package x; interface X \x7b\x7d"),
    (["lib", "y"], "Y", "package y; interface Y \x7b\x7d")]

/-- A configuration for these declarations. -/
def twinConfig : Config :=
  { Config.standard 1 with sourceDirs := ["src/..."], outputDir := "gen", sourcePath := ["lib"] }

/-- The declaration of the class in the file at the path. -/
def twin (decorated path : String) : Decoration :=
  ⟨"A", "p", decorated, [], [], path⟩

theorem scan_twin : twinDisk.scan ["src/..."] = .ok ["/src/a/A.java", "/src/b/A.java"] :=
  Disk.scan_listed (by decide +kernel)

theorem declaredIn_twin : twinDisk.declaredIn ["/src/a/A.java", "/src/b/A.java"] =
    [("/src/a/A.java", .present (twin "x.X" "/src/a/A.java")),
      ("/src/b/A.java", .present (twin "y.Y" "/src/b/A.java"))] := by
  obtain ⟨first, second⟩ :
      (twinDisk.extractionOf "/src/a/A.java").value? = some (twin "x.X" "/src/a/A.java") ∧
      (twinDisk.extractionOf "/src/b/A.java").value? = some (twin "y.Y" "/src/b/A.java") := by
    decide +kernel
  rw [Disk.declaredIn, List.map_cons, List.map_singleton, Attempt.eq_present_of_value? first,
    Attempt.eq_present_of_value? second]

/-- The units of the two declarations are different. -/
theorem units_twin : ∃ u v, twinDisk.unitAt? twinConfig (twin "x.X" "/src/a/A.java") = some u ∧
    twinDisk.unitAt? twinConfig (twin "y.Y" "/src/b/A.java") = some v ∧ u.source ≠ v.source := by
  obtain ⟨base, base', differ⟩ :
      ((SourceLoader.ofRoots twinConfig.sourcePath).library twinDisk).IsBase (twin "x.X" "/src/a/A.java").decorated ∧
      ((SourceLoader.ofRoots twinConfig.sourcePath).library twinDisk).IsBase (twin "y.Y" "/src/b/A.java").decorated ∧
      ∃ u ∈ twinDisk.ownUnit? twinConfig.sourcePath (twin "x.X" "/src/a/A.java"),
        ∃ v ∈ twinDisk.ownUnit? twinConfig.sourcePath (twin "y.Y" "/src/b/A.java"), u.source ≠ v.source := by
    decide
  rw [unitAt?_of_base rfl base, unitAt?_of_base rfl base']
  obtain ⟨u, isUnit, v, isOther, differ⟩ := differ
  exact ⟨u, v, isUnit, isOther, differ⟩

/-- **The unit of one declaration is lost** to that of the other. The run ends without a failure and
counts both units, but their path is the same, and the file there does not hold the first of them. -/
theorem twin_overwritten :
    twinConfig.dryRun = false ∧ twinDisk.IsTree ∧
    ∃ o products, Runs.Making twinConfig "" false twinDisk o products ∧ o.failure = none ∧
      o.summary.results = products.map (·.result) ∧
      (∃ p ∈ products, p.isDone = true ∧ o.disk.readFile p.result.output ≠ .ok p.source) ∧
      ∃ p ∈ products, ∃ q ∈ products, p.isDone = true ∧ q.isDone = true ∧
        p.result.output = q.result.output ∧ p.source ≠ q.source := by
  have separate : twinConfig.IsSeparate twinDisk :=
    ⟨by decide +kernel, by decide +kernel, by decide⟩
  have grounded := separate.tree.isGrounded
  have scanned : runScan twinConfig "" false twinDisk = .ok ["/src/a/A.java", "/src/b/A.java"] := by
    rw [runScan, twinConfig, scan_twin]
    rfl
  have isRun : run twinConfig "" false twinDisk = runScanned twinConfig "" twinDisk
      ["/src/a/A.java", "/src/b/A.java"]
      (Reader.fresh.extractAll twinDisk ["/src/a/A.java", "/src/b/A.java"]) := by
    rw [run, scanned]
  have ended : (run twinConfig "" false twinDisk).failure = none := by
    rw [isRun]
    exact (runScanned_eq rfl "" twinDisk _).1
  obtain ⟨products, making⟩ := (runs_run twinConfig "" false twinDisk).exists_making
  have makes : twinDisk.Makes twinConfig ((twinDisk.declaredIn ["/src/a/A.java", "/src/b/A.java"]).filter
      fun entry => !entry.2.isEmpty) products := by
    unfold Runs.Making at making
    rw [scanned] at making
    obtain ⟨extraction, yields, -, rfl⟩ := making
    have isDeclared := yields.declared_eq.1
    rw [productsDeclared, stopping?_of_partially rfl, isDeclared]
    exact makes_productsOf separate _ (fun _ member _ => isPlaceable_of_mem member) _
      (faithful_of_yields yields)
  have writable : (twinConfig.output.write twinDisk (twin "x.X" "/src/a/A.java").blank).path.isOk = true := by
    decide +kernel
  have written := making.written grounded fun files found => by
    rw [twinConfig, scan_twin] at found
    cases found
    rw [declaredIn_twin]
    refine List.forall_mem_cons.mpr ⟨fun decoration present => ?_,
      List.forall_mem_singleton.mpr fun decoration present => ?_⟩ <;>
    · cases present
      exact writable
  have holds := making.holdsLast rfl grounded
  obtain ⟨u, v, isUnit, isOther, differ⟩ := units_twin
  rw [declaredIn_twin] at makes
  obtain ⟨p, isProduct, q, isOther, done, otherDone, same, source, otherSource⟩ :=
    holds.exists_clash makes written List.mem_cons_self (List.mem_cons_of_mem _ List.mem_cons_self)
      isUnit isOther rfl (by decide +kernel)
  have clash : p.source ≠ q.source := by
    rw [source, otherSource]
    exact differ
  refine ⟨rfl, separate.tree, _, products, making, ended, making.results_eq, ?_,
    p, isProduct, q, isOther, done, otherDone, same, clash⟩
  by_contra all
  push Not at all
  exact clash (holds.own_iff.mp all p isProduct q isOther done otherDone same)

end Forwarder
