/-
**Generating again changes nothing.** A run writes below the output directory alone, and what it writes
there does not look like a declaration. So a second run over the tree that it leaves finds the declarations
of the first one, makes the same units of them, and writes the same texts to the same files.

* `Product.Again` — the product of the same unit, with a result that is alike.
* `Disk.SameTree`, `Outcome.Repeats` — what a run has in common with the one before it.
* `Completes.second` — a second run comes to its end, with the same declarations.
* `Completes.again` — it makes the same products; `Completes.sameTree` — it leaves the files as they are.
* **`Runs.generated_again`** — the two runs together, and that no unit looks like a declaration.
* `detour_not_repeated` — a detour through the output directory to what should be an archive.
-/

import Forwarder.Proofs.Batch.Repeatable

namespace Forwarder

open Forwarder.Path (ofComponents)
open SourceLoader (diskOf)

variable {config : Config} {d e : Disk}

/-! ### Products that are made again -/

/-- The product of the same unit, with a result that is alike. -/
structure Product.Again (q p : Product) : Prop where
  unit : q.unit? = p.unit?
  result : q.result.Alike p.result

theorem FileResult.Alike.isNone_eq {r s : FileResult} (alike : r.Alike s) :
    r.failure.isNone = s.failure.isNone := by
  have same := alike.failure
  generalize r.failure = first at same
  generalize s.failure = second at same
  cases same <;> rfl

section Again

variable {out : Output} {products others : List Product} {place : Place}

theorem Product.Again.textAt?_eq {q p : Product} (again : q.Again p) (cwd : e.cwd = d.cwd) :
    q.textAt? out e place = p.textAt? out d place := by
  have done : q.isDone = p.isDone := again.result.isNone_eq
  simp only [textAt?, done, again.unit, Output.target_of_cwd cwd]

theorem lastText?_again (again : List.Forall₂ Product.Again others products) (cwd : e.cwd = d.cwd) :
    lastText? out e place others = lastText? out d place products := by
  induction again with
  | nil => rfl
  | cons first _ ih => rw [lastText?, lastText?, ih, first.textAt?_eq cwd]

theorem IsSettled.again (settled : IsSettled out d products)
    (again : List.Forall₂ Product.Again others products) : IsSettled out d others := by
  intro q member u isUnit
  obtain ⟨p, isProduct, same⟩ := exists_of_forall₂ again.flip q member
  exact settled p isProduct u (same.unit ▸ isUnit)

end Again

/-- The same directories, and files with the same contents. -/
structure Disk.SameTree (e d : Disk) : Prop where
  cwd : e.cwd = d.cwd
  dirs : ∀ place, e.isDirAt place = d.isDirAt place
  contents : ∀ place, (e.file? place).map (·.content) = (d.file? place).map (·.content)

/-- A run has come to what the one before it came to, and has left all files as they were. -/
structure Outcome.Repeats (second first : Outcome) : Prop where
  failure : second.failure = none
  results : List.Forall₂ FileResult.Alike second.summary.results first.summary.results
  candidates : second.summary.candidates = first.summary.candidates
  generated : second.summary.generated = first.summary.generated
  failed : second.summary.failed = first.summary.failed
  tree : second.disk.SameTree first.disk

/-- Results that are alike are counted alike. -/
theorem Summary.counts_of_alike {s t : Summary} {results others : List FileResult}
    (alike : List.Forall₂ FileResult.Alike others results) :
    (t.withResults others).generated = (s.withResults results).generated ∧
      (t.withResults others).failed = (s.withResults results).failed := by
  refine ⟨(List.rel_filter (fun r s same => ?_) alike).length_eq,
    (List.rel_filter (fun r s same => ?_) alike).length_eq⟩
  · exact Bool.eq_iff_iff.mp same.isNone_eq
  · have isSome : r.failure.isSome = s.failure.isSome := by
      rw [← Option.not_isNone, ← Option.not_isNone, same.isNone_eq]
    exact Bool.eq_iff_iff.mp isSome

/-! ### The second run -/

section Second

variable {files others : List String} {shop shop' : Workshop} {o o' : Outcome}
  {products products' : List Product}

namespace Disk.Completes

variable (completes : d.Completes config files shop o products) (repeatable : config.IsRepeatable d)

include completes repeatable

/-- A second run comes to its end, with the same declarations. -/
theorem second (inReach : o.IsInReach d) {runId : String}
    (making : Runs.Making config runId false o.disk o' products') :
    ∃ others shop', o.disk.Completes config others shop' o' products' ∧
      (o.disk.declaredIn others).filter (fun entry => !entry.2.isEmpty) =
        (d.declaredIn files).filter fun entry => !entry.2.isEmpty := by
  have proper := repeatable.proper
  have proper' := completes.isProper repeatable.wet proper
  have grown := completes.grown proper.isGrounded
  obtain ⟨others, scanned⟩ := grown.exists_scan proper proper' (completes.allowed_of_new repeatable inReach)
    completes.scanned
  have same := Disk.declaredIn_rescan proper proper' grown.cwd completes.scanned scanned fun place _ =>
    completes.heldAt_eq repeatable inReach place
  obtain ⟨shop', completes'⟩ := making.completes_of_scan scanned (stopping?_of_filter same completes.goesOn)
  exact ⟨others, shop', completes', same⟩

/-- **The second run** makes the products of the first one again. -/
theorem again (completes' : o.disk.Completes config others shop' o' products')
    (same : (o.disk.declaredIn others).filter (fun entry => !entry.2.isEmpty) =
      (d.declaredIn files).filter fun entry => !entry.2.isEmpty) :
    List.Forall₂ Product.Again products' products := by
  have makes' := completes'.makes (completes.isSeparate repeatable)
  rw [same] at makes'
  refine forall₂_of_common makes' (completes.makes repeatable.separate) ?_
  rintro ⟨path, attempt⟩ member q p ⟨isUnit', now, isResult'⟩ ⟨isUnit, later, isResult⟩
  have placeable : ∀ decoration, attempt = .present decoration → decoration.IsPlaceable :=
    fun _ => isPlaceable_of_mem (List.mem_filter.mp member).1
  refine ⟨?_, completes.alike_resultAt? repeatable placeable isResult' isResult⟩
  rw [isUnit', isUnit]
  cases attempt with
  | empty => rfl
  | failed failure => rfl
  | present decoration => exact completes.unitAt?_eq repeatable (placeable decoration rfl)

/-- **The second run** leaves the files as they are. -/
theorem sameTree (completes' : o.disk.Completes config others shop' o' products')
    (again : List.Forall₂ Product.Again products' products) : o'.disk.SameTree o.disk := by
  have grounded := repeatable.proper.isGrounded
  have grown := completes.grown grounded
  have grounded' := grown.isGrounded grounded
  refine ⟨(completes'.grown grounded').cwd, fun place => ?_, fun place => ?_⟩
  · have settled := (completes.settled repeatable.wet grounded).again again
    have atStart := completes'.atStart
    rw [completes'.made] at settled
    rw [completes'.disk, isDirAt_generateAll repeatable.wet place (o.disk.declaredIn others)
      (fun _ member _ => isPlaceable_of_mem member) shop' (atStart ▸ grounded') (atStart.symm ▸ settled),
      atStart]
  · rw [completes'.content repeatable.wet grounded', lastText?_again again grown.cwd,
      completes.content repeatable.wet grounded, ← Option.or_assoc, Option.or_self]

end Disk.Completes

/-- **Generating again changes nothing.** If a project may be generated again and a run over it ends without
a failure, a second run with the same configuration comes to the same results and counts, and leaves all
directories and files as they are. The files may be read in any order in both runs, and the output directory
may be among those that are scanned: no unit that is made of harmless texts looks like a declaration. -/
theorem Runs.generated_again (repeatable : config.IsRepeatable d) {runId again : String} {cancelled : Bool}
    (runs : Runs config runId cancelled d o) (ended : o.failure = none)
    (inReach : o.IsInReach d) (second : Runs config again false o.disk o') :
    o'.Repeats o ∧ ∀ decoration surface u, Decoration.IsHarmless decoration → Surface.IsHarmless surface →
      Forwarding.synthesize decoration (some surface) = .ok u →
        HeaderPattern.matchesDecorator u.source = false := by
  refine ⟨?_, fun decoration surface u harmless ofSurface made => ?_⟩
  · obtain ⟨products, making⟩ := runs.exists_making
    obtain ⟨products', making'⟩ := second.exists_making
    obtain ⟨files, shop, completes⟩ := making.completes ended
    obtain ⟨others, shop', completes', same⟩ := completes.second repeatable inReach making'
    have made := completes.again repeatable completes' same
    have alike : List.Forall₂ FileResult.Alike (products'.map (·.result)) (products.map (·.result)) :=
      List.forall₂_map_left_iff.mpr (List.forall₂_map_right_iff.mpr (made.imp fun _ _ => (·.result)))
    obtain ⟨s, isSummary, counted⟩ := completes.counted
    obtain ⟨t, isSummary', counted'⟩ := completes'.counted
    obtain ⟨generated, failed⟩ := Summary.counts_of_alike (s := s) (t := t) alike
    refine ⟨completes'.failure, ?_, ?_, ?_, ?_, completes.sameTree repeatable completes' made⟩
    · rw [isSummary, isSummary']
      exact alike
    · rw [isSummary, isSummary', Summary.withResults, Summary.withResults]
      dsimp only
      rw [counted', counted, same]
    · rw [isSummary, isSummary', generated]
    · rw [isSummary, isSummary', failed]
  · exact unmatched_of_synthesize harmless.tame ofSurface.tame made

end Second

/-- A declaration and the type that it decorates, and an empty file with the ending of an archive. -/
def soleDisk : Disk :=
  (diskOf [(["src", "a"], "A", "package a; import p.P; class A implements Decorator<P> \x7b\x7d"),
    (["lib", "p"], "P", "package p; interface P \x7b\x7d")]).put ["q.jar"] (.file ⟨.text "", .given 0⟩)

/-- A configuration for this declaration. -/
def soleConfig (outputDir : String) (roots : List String) : Config :=
  { Config.standard 1 with sourceDirs := ["src/..."], outputDir, sourcePath := roots }

/-- The declaration. -/
def sole : Decoration := ⟨"A", "a", "p.P", [], [], "/src/a/A.java"⟩

/-- The file of the declaration is the only one that a scan finds. -/
def Disk.HoldsSole (e : Disk) : Prop :=
  Path.absolute e.cwdText "src" = "/src" ∧ (e.place "/src").toOption = some ["src"] ∧ e.isDir "/src" = true ∧
    (∀ reached ∈ e.met ["src"] isEntered, Disk.unseen? "/src" reached.1 = none) ∧
    (e.met ["src"] isEntered).filterMap (Disk.shown? "/src") = ["/src/a/A.java"] ∧
    (e.extractionOf "/src/a/A.java").value? = some sole

instance (e : Disk) : Decidable e.HoldsSole :=
  inferInstanceAs (Decidable (_ ∧ _))

theorem Disk.HoldsSole.scan (holds : e.HoldsSole) : e.scan ["src/..."] = .ok ["/src/a/A.java"] := by
  obtain ⟨absolute, place, isDir, seen, listed, -⟩ := holds
  exact Disk.scan_listed ⟨absolute, place, isDir, seen, listed, by decide +kernel⟩

theorem Disk.HoldsSole.extractionOf (holds : e.HoldsSole) :
    e.extractionOf "/src/a/A.java" = .present sole :=
  Attempt.eq_present_of_value? holds.2.2.2.2.2

theorem proper_sole : soleDisk.IsProper := by
  decide +kernel

theorem holdsSole_soleDisk : soleDisk.HoldsSole := by
  decide +kernel

/-- The project is harmless. -/
theorem isHarmless_sole (outputDir : String) (roots : List String) :
    (soleConfig outputDir roots).IsHarmless soleDisk := by
  have harmless : ∀ text ∈ SourceLoader.texts soleDisk, (Source.parse text).toOption.all
      (fun u => decide (∀ name ∈ u.identifiers, IsHarmless name)) = true := by
    decide +kernel
  exact Config.isHarmless_of_texts (by decide) rfl fun text isText => forall_of_all (harmless text isText)

/-- The unit is written, and all that is on the disk then can be looked up, its output in particular. -/
def Output.reaches (out : Output) (d : Disk) (u : GeneratedUnit) : Bool :=
  (out.write d u).disk.entries.all (fun held => (Disk.refusedPath? (ofComponents true held.1)).isNone) &&
    match (out.write d u).path with
    | .ok path => (Disk.refusedPath? (ofComponents true ((out.write d u).disk.spot path))).isNone
    | .error _ => false

theorem Output.isInReach_of_reaches {out : Output} {u : GeneratedUnit} (reaches : out.reaches d u = true)
    {o : Outcome} {path : String} {decoration : Decoration}
    (results : o.summary.results = [resultOf path decoration (out.write d u).path])
    (disk : o.disk = (out.write d u).disk) : o.IsInReach d := by
  rw [Output.reaches, Bool.and_eq_true, List.all_eq_true] at reaches
  obtain ⟨allowed, written⟩ := reaches
  constructor
  · rw [results, disk]
    refine List.forall_mem_singleton.mpr fun _ => ?_
    cases isWritten : (out.write d u).path with
    | error failure =>
      rw [isWritten] at written
      cases written
    | ok path =>
      rw [isWritten] at written
      exact Option.isNone_iff_eq_none.mp written
  · intro place _ isDir
    rw [disk] at isDir
    by_cases isRoot : place = []
    · rw [isRoot]
      decide
    · have found := Disk.isDirAt_iff.mp isDir
      rw [Disk.entry?, if_neg isRoot] at found
      exact Option.isNone_iff_eq_none.mp (allowed (place, .dir) (mem_of_lookup_eq_some found))

/-- The output directory is below a directory that is scanned. -/
def insideConfig : Config :=
  soleConfig "src/gen" ["lib"]

theorem generated_again_inside :
    insideConfig.IsRepeatable soleDisk ∧
    ∃ o o', Runs insideConfig "" false soleDisk o ∧ o.failure = none ∧ o.IsInReach soleDisk ∧
      Runs insideConfig "" false o.disk o' ∧ o'.Repeats o ∧
      ∃ u, Forwarding.synthesize sole (some ⟨"p.P", [], [], []⟩) = .ok u ∧
        HeaderPattern.matchesDecorator u.source = false := by
  have proper := proper_sole
  have nothing : ∀ entry ∈ soleDisk.entries, ¬soleDisk.spot insideConfig.outputDir <+: entry.1 := by
    decide +kernel
  have repeatable : insideConfig.IsRepeatable soleDisk :=
    { wet := rfl
      proper
      separate := ⟨proper.toIsTree, by decide +kernel, by decide +kernel⟩
      unmatched := fun place file below isFile =>
        absurd below (nothing _ (proper.file?_eq_some_iff.mp isFile))
      level := by decide +kernel
      harmless := isHarmless_sole _ _ }
  obtain ⟨o, u, runs, ended, reaches, results, disk⟩ := Runs.exists_written insideConfig
    (insideConfig.output.reaches soleDisk) holdsSole_soleDisk.scan rfl rfl
    holdsSole_soleDisk.extractionOf (by decide +kernel)
  have inReach : o.IsInReach soleDisk := Output.isInReach_of_reaches reaches results disk
  have second := runs_run insideConfig "" false o.disk
  obtain ⟨repeats, unmatched⟩ := Runs.generated_again repeatable runs ended inReach second
  have harmless : sole.IsHarmless := by
    unfold Decoration.IsHarmless
    decide
  obtain ⟨u, made, -⟩ : ∃ u, Forwarding.synthesize sole (some ⟨"p.P", [], [], []⟩) = .ok u ∧ True :=
    exists_of_any (by decide +kernel)
  exact ⟨repeatable, o, _, runs, ended, inReach, second, repeats, u, made,
    unmatched sole _ u harmless (by decide) made⟩

/-! ### A detour -/

/-- What should be an archive is named by a detour through the output directory. -/
def wayConfig : Config :=
  soleConfig "a/out" ["a/../q.jar", "lib"]

/-- The library of a run that has read the file of the declaration. -/
def Disk.wayLibrary (e : Disk) : Library :=
  (SourceLoader.sharing (Reader.fresh.extractAll e ["/src/a/A.java"]).reader wayConfig.sourcePath).library e

/-- A run that does not find the type fails for the declaration. -/
theorem Disk.HoldsSole.exists_failed (holds : e.HoldsSole)
    (lacks : e.wayLibrary.lacks sole.decorated = true) :
    ∃ o failure, Runs wayConfig "" false e o ∧
      o.summary.results = [resultOf "/src/a/A.java" sole (.error failure)] := by
  obtain ⟨o, runs, -, results, -⟩ := Runs.exists_single wayConfig holds.scan rfl rfl holds.extractionOf
  obtain ⟨failure, undeclared, unresolved⟩ := Library.exists_of_lacks lacks
  rw [path_of_unresolved undeclared unresolved] at results
  exact ⟨o, _, runs, results⟩

/-- **A detour through the output directory** makes a second run differ from the first one. The first run
makes the directory on the way to what should be an archive, and then this is found before the type. -/
theorem detour_not_repeated :
    wayConfig.dryRun = false ∧ soleDisk.IsProper ∧
    (∀ root ∈ wayConfig.sourcePath, soleDisk.Apart wayConfig.outputDir root) ∧
    (∀ entry ∈ soleDisk.entries, ¬soleDisk.spot wayConfig.outputDir <+: entry.1) ∧
    (∀ entry ∈ soleDisk.entries, ∀ name ∈ entry.1, NeverClimbs name) ∧ wayConfig.IsHarmless soleDisk ∧
    ∃ o o', Runs wayConfig "" false soleDisk o ∧ o.failure = none ∧ o.IsInReach soleDisk ∧
      Runs wayConfig "" false o.disk o' ∧ ¬o'.Repeats o := by
  obtain ⟨o, u, runs, ended, checked, results, disk⟩ := Runs.exists_written wayConfig
    (fun u => wayConfig.output.reaches soleDisk u &&
      decide (wayConfig.output.write soleDisk u).disk.HoldsSole &&
      (wayConfig.output.write soleDisk u).disk.wayLibrary.lacks sole.decorated)
    holdsSole_soleDisk.scan rfl rfl holdsSole_soleDisk.extractionOf (by decide +kernel)
  rw [Bool.and_eq_true, Bool.and_eq_true, decide_eq_true_iff, ← disk] at checked
  obtain ⟨⟨reaches, holds⟩, lacks⟩ := checked
  obtain ⟨o', failure, second, results'⟩ := holds.exists_failed lacks
  have inReach : o.IsInReach soleDisk := Output.isInReach_of_reaches reaches results disk
  refine ⟨rfl, proper_sole, by decide, by decide, by decide, isHarmless_sole _ _,
    o, o', runs, ended, inReach, second, fun same => ?_⟩
  have alike := same.results
  rw [results', results] at alike
  obtain ⟨first, -⟩ := List.forall₂_cons.mp alike
  cases written : (wayConfig.output.write soleDisk u).path with
  | error other =>
    rw [Output.reaches, written, Bool.and_false] at reaches
    cases reaches
  | ok path =>
    rw [written] at first
    exact absurd first.isNone_eq Bool.false_ne_true

end Forwarder
