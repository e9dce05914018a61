/-
**All or nothing.** A run with this setting comes to nothing as soon as one declaration is rejected, and
is like any other run if none is. The failure of all declarations together and the file that it belongs to
are looked for apart from each other, and both are those of the first rejected file.

* `Attempt.join_of_first`, `Attempt.join_of_none` — what attempts come to together.
* `Disk.IsRejected`, `Disk.Rejects` — the declaration in a file is rejected, for a reason.
* `stopping?_of_first`, `stopping?_of_none` — what stops a run, and that nothing does.
* `Outcome.IsStopped` — of a run nothing is left but the failure of one file.
* **`Runs.all_or_nothing`** — what becomes of a run that is all or nothing.
-/

import Forwarder.Proofs.Batch.Pointwise
import Forwarder.Proofs.Decoration.Exact

namespace Forwarder

open SourceLoader (diskOf)

variable {config : Config} {d : Disk}

/-- If an item has the property, a first one does. -/
theorem exists_isFirst {α : Type} {holds : α → Prop} [DecidablePred holds] {items : List α}
    (some_ : ∃ item ∈ items, holds item) : ∃ item, IsFirst holds items item := by
  obtain ⟨item, member, here⟩ := some_
  have found : (items.find? fun item => decide (holds item)).isSome :=
    List.find?_isSome.mpr ⟨item, member, decide_eq_true here⟩
  obtain ⟨first, isFound⟩ := Option.isSome_iff_exists.mp found
  exact ⟨first, (find?_eq_some_iff_isFirst fun _ => decide_eq_true_iff).mp isFound⟩

/-! ### Attempts together -/

namespace Attempt

variable {α : Type}

/-- Attempts with a failure come to the first one. -/
theorem join_of_first {before : List (Attempt α)} (none_ : ∀ a ∈ before, a.hasFailed = false)
    (failure : Failure) (after : List (Attempt α)) :
    join (before ++ .failed failure :: after) = .failed failure := by
  induction before with
  | nil => rfl
  | cons a before ih =>
    obtain ⟨first, others⟩ := List.forall_mem_cons.mp none_
    cases a with
    | present value =>
      rw [List.cons_append, join, ih others]
      rfl
    | empty => exact ih others
    | failed failure => cases first

/-- Attempts without a failure come to their values. -/
theorem join_of_none {attempts : List (Attempt α)} (none_ : ∀ a ∈ attempts, a.hasFailed = false) :
    join attempts = .present (attempts.filterMap value?) := by
  induction attempts with
  | nil => rfl
  | cons a attempts ih =>
    obtain ⟨first, others⟩ := List.forall_mem_cons.mp none_
    cases a with
    | present value =>
      rw [join, ih others]
      rfl
    | empty => exact ih others
    | failed failure => cases first

end Attempt

/-! ### What stops a run -/

/-- The extraction of the file at the path fails. -/
def Disk.IsRejected (d : Disk) (path : String) : Prop :=
  (Reader.fresh.extract d path).1.hasFailed = true

/-- The extraction of the file at the path fails with this failure. -/
def Disk.Rejects (d : Disk) (path : String) (failure : Failure) : Prop :=
  (Reader.fresh.extract d path).1 = .failed failure

instance (d : Disk) (path : String) : Decidable (d.IsRejected path) :=
  inferInstanceAs (Decidable (_ = true))

theorem Disk.IsRejected.rejects {path : String} (rejected : d.IsRejected path) :
    ∃ failure, d.Rejects path failure := by
  rw [IsRejected] at rejected
  cases attempt : (Reader.fresh.extract d path).1 with
  | failed failure => exact ⟨failure, attempt⟩
  | present decoration =>
    rw [attempt] at rejected
    cases rejected
  | empty =>
    rw [attempt] at rejected
    cases rejected

/-- The path that is looked for on its own is that of the first rejected file. -/
theorem firstRejected_of_first {files : List String} {path : String}
    (first : IsFirst d.IsRejected files path) : firstRejected (d.declaredIn files) = path := by
  have decides : ∀ path, (d.extractionOf path).hasFailed = true ↔ d.IsRejected path := fun path => by
    rw [Disk.IsRejected, extract_eq]
  have found := (find?_eq_some_iff_isFirst decides).mpr first
  have kept : (fun entry : String × Attempt Decoration => entry.2.hasFailed) ∘
      (fun path => (path, d.extractionOf path)) = fun path => (d.extractionOf path).hasFailed := rfl
  rw [firstRejected, Disk.declaredIn, List.find?_map, kept, found]
  rfl

/-- **The first rejected file** stops a run that is all or nothing. -/
theorem stopping?_of_first (whole : config.allOrNothing = true) {files : List String} {path : String}
    {failure : Failure} (first : IsFirst d.IsRejected files path) (rejects : d.Rejects path failure) :
    stopping? config (d.declaredIn files) = some (path, failure) := by
  have isPath := firstRejected_of_first first
  obtain ⟨-, before, after, rfl, none_⟩ := first
  rw [Disk.Rejects, extract_eq] at rejects
  have joined : Attempt.join ((d.declaredIn (before ++ path :: after)).map (·.2)) = .failed failure := by
    rw [Disk.declaredIn, List.map_map, List.map_append, List.map_cons, Function.comp_apply, rejects]
    refine Attempt.join_of_first (List.forall_mem_map.mpr fun other member => ?_) failure _
    have accepted := none_ other member
    rwa [Disk.IsRejected, extract_eq, Bool.not_eq_true] at accepted
  rw [stopping?, if_pos whole, joined, isPath]

/-- Without a rejected file nothing stops a run. -/
theorem stopping?_of_none {files : List String} (none_ : ∀ path ∈ files, ¬d.IsRejected path) :
    stopping? config (d.declaredIn files) = none := by
  have joined : ∃ values, Attempt.join ((d.declaredIn files).map (·.2)) = .present values := by
    rw [Disk.declaredIn, List.map_map]
    refine ⟨_, Attempt.join_of_none (List.forall_mem_map.mpr fun path member => ?_)⟩
    have accepted := none_ path member
    rwa [Disk.IsRejected, extract_eq, Bool.not_eq_true] at accepted
  obtain ⟨values, joined⟩ := joined
  rw [stopping?, joined]
  split <;> rfl

/-- Without the setting nothing stops a run. -/
theorem stopping?_of_partially (partially : config.allOrNothing = false)
    (declared : List (String × Attempt Decoration)) : stopping? config declared = none := by
  rw [stopping?, partially]
  rfl

/-! ### Runs -/

/-- What is shown of units in these events. -/
def Event.shown (events : List Event) : String :=
  String.join (events.map inPreview)

/-- Nothing is left of the run but the failure of one file. -/
structure Outcome.IsStopped (o : Outcome) (d : Disk) (path : String) (cause : Failure) : Prop where
  /-- The run fails with the reason and the code of the failure, at the path. -/
  failure : o.failure = some (.coded cause.code (path ++ ": " ++ cause.text) Location.nowhere
    (some cause) [("path", .text path)] [])
  /-- The only result is this failure. -/
  results : o.summary.results = [⟨path, "", "", "", some cause⟩]
  generated : o.summary.generated = 0
  /-- The files are as they were. -/
  disk : o.disk = d
  /-- Nothing was shown. -/
  shown : Event.shown o.events = ""

/-- What a run on files that are found comes to when something stops it. -/
theorem isStopped_runScanned {runId : String} {files : List String} {extraction : Extraction}
    {path : String} {failure : Failure}
    (stopping : stopping? config extraction.declared = some (path, failure)) :
    (runScanned config runId d files extraction).IsStopped d path failure := by
  rw [runScanned, runDeclared, stopping]
  exact ⟨rfl, rfl, rfl, rfl, rfl⟩

/-- The setting makes no difference to a run that nothing stops. -/
theorem runScanned_partially {runId : String} {files : List String} {extraction : Extraction}
    (stopping : stopping? config extraction.declared = none) :
    runScanned config runId d files extraction =
      runScanned { config with allOrNothing := false } runId d files extraction := by
  rw [runScanned, runScanned, runDeclared, runDeclared, stopping, stopping?_of_partially rfl]
  rfl

/-- **A run that is all or nothing.** If a file is rejected, the first one in order is all that is told of
the run, and nothing is written or shown. If none is, the run is one without the setting. -/
theorem Runs.all_or_nothing (whole : config.allOrNothing = true) (runId : String) :
    (∀ files, d.scan config.sourceDirs = .ok files → (∃ path ∈ files, d.IsRejected path) →
      files.Pairwise (· < ·) ∧ ∃ path failure, IsFirst d.IsRejected files path ∧ d.Rejects path failure ∧
        (∃ o, Runs config runId false d o) ∧
        ∀ o, Runs config runId false d o → o.IsStopped d path failure) ∧
    ((∀ files, d.scan config.sourceDirs = .ok files → ∀ path ∈ files, ¬d.IsRejected path) →
      ∀ cancelled o, Runs config runId cancelled d o ↔
        Runs { config with allOrNothing := false } runId cancelled d o) := by
  constructor
  · intro files found some_
    obtain ⟨path, first⟩ := exists_isFirst some_
    obtain ⟨failure, rejects⟩ := first.1.rejects
    refine ⟨pairwise_scan found, path, failure, first, rejects, ⟨_, runs_run config runId false d⟩,
      fun o runs => ?_⟩
    rw [Runs, runScan, found] at runs
    obtain ⟨extraction, yields, rfl⟩ := runs
    refine isStopped_runScanned ?_
    rw [yields.declared_eq.1]
    exact stopping?_of_first whole first rejects
  · intro accepted cancelled o
    have scanned := runScan_cases config runId cancelled d
    have sameScan : runScan { config with allOrNothing := false } runId cancelled d =
      runScan config runId cancelled d := rfl
    rw [Runs, Runs, sameScan]
    cases isScan : runScan config runId cancelled d with
    | error stopped => exact Iff.rfl
    | ok files =>
      rw [isScan] at scanned
      refine exists_congr fun extraction => and_congr_right fun yields => ?_
      have nothing : stopping? config extraction.declared = none := by
        rw [yields.declared_eq.1]
        exact stopping?_of_none (accepted files scanned)
      rw [runScanned_partially nothing]

/-- Three declarations, of which the last two decorate types that they do not import. -/
def strayDisk : Disk :=
  diskOf [(["src", "a"], "A", "package a; import p.P; class A implements Decorator<P> \x7b\x7d"),
    (["src", "b"], "B", "package b; class B implements Decorator<Q> \x7b\x7d"),
    (["src", "c"], "C", "package c; class C implements Decorator<R> \x7b\x7d")]

/-- A configuration that is all or nothing. -/
def wholeConfig : Config :=
  { pairConfig "gen" "q.jar" with allOrNothing := true }

theorem scan_stray :
    strayDisk.scan ["src/..."] = .ok ["/src/a/A.java", "/src/b/B.java", "/src/c/C.java"] :=
  Disk.scan_listed (by decide +kernel)

theorem all_or_nothing_stray :
    wholeConfig.allOrNothing = true ∧
    strayDisk.scan ["src/..."] = .ok ["/src/a/A.java", "/src/b/B.java", "/src/c/C.java"] ∧
    (∃ path failure,
      IsFirst strayDisk.IsRejected ["/src/a/A.java", "/src/b/B.java", "/src/c/C.java"] path ∧
      ∃ o, Runs wholeConfig "" false strayDisk o ∧ o.IsStopped strayDisk path failure) ∧
    (∀ files, pairDisk.scan ["src/..."] = .ok files → ∀ path ∈ files, ¬pairDisk.IsRejected path) ∧
    ∀ o, Runs wholeConfig "" false pairDisk o ↔ Runs (pairConfig "gen" "q.jar") "" false pairDisk o := by
  have accepted : ∀ files, pairDisk.scan ["src/..."] = .ok files →
      ∀ path ∈ files, ¬pairDisk.IsRejected path := by
    intro files found
    rw [scan_pair] at found
    cases found
    simp only [List.forall_mem_cons, Disk.IsRejected, extract_eq, extractionOf_pair.1, extractionOf_pair.2]
    decide
  have some_ : ∃ path ∈ ["/src/a/A.java", "/src/b/B.java", "/src/c/C.java"],
      strayDisk.IsRejected path := ⟨"/src/b/B.java", by decide, by decide +kernel⟩
  obtain ⟨-, path, failure, first, -, ⟨o, runs⟩, stopped⟩ :=
    (Runs.all_or_nothing (show wholeConfig.allOrNothing = true from rfl) "").1 _ scan_stray some_
  exact ⟨rfl, scan_stray, ⟨path, failure, first, o, runs, stopped o runs⟩, accepted,
    (Runs.all_or_nothing (show wholeConfig.allOrNothing = true from rfl) "").2 accepted false⟩

end Forwarder
