/-
**Reading what was found.** Files are found by going through directories, and they are read under checked
paths. The check looks for two points in a row anywhere in the text of a path. So what is found can be read
unless some name on its way holds two points in a row, or the system refuses the path itself.

* `Disk.readable_of_scan` — the files that a scan finds.
* `SourceLoader.readable_of_locate` — the files that a source path leads to.
* **`readable_found`** — the two together, with what the check says about paths at large.
-/

import Forwarder.Proofs.Batch.Rescan
import Forwarder.Proofs.Files.Level
import Forwarder.Proofs.Loading.Undisturbed

namespace Forwarder

open Disk (refusedPath?)
open Forwarder.Path (ofComponents)
open Reader (readable)

variable {d : Disk} {path name : String} {patterns files roots : List String} {l : SourceLoader}

/-! ### Scans -/

/-- The path of a file that a scan finds. -/
theorem Disk.readable_of_scan (proper : d.IsProper) (scanned : d.scan patterns = .ok files)
    (member : path ∈ files) :
    readable d path =
      if Path.IsLevel path then
        match refusedPath? path with
        | none => .ok path
        | some refusal => .error (.system (fault "stat" path refusal))
      else .error (climbing path) := by
  obtain ⟨place, file, isFile, -, rfl⟩ := (mem_scan proper scanned).mp member
  have isEntry := file?_eq_some.mp isFile
  have normal := proper.normal isEntry
  have placed := proper.place_absolute isEntry
  have isClean := Path.clean_ofComponents normal
  cases refused : refusedPath? (ofComponents true place) with
  | none =>
    rw [refused] at placed
    have there : d.resolve (ofComponents true place) = .ok (.file file) :=
      resolve_eq_file.mpr ⟨place, placed, isFile⟩
    rw [Reader.readable_eq proper there, isClean]
  | some refusal =>
    -- The path is not empty, so something else is wrong with it.
    have some_ := Path.ne_empty_ofComponents normal
    have present : refusal ≠ .missing := by
      rw [refusedPath?, if_neg (by simpa using some_)] at refused
      split_ifs at refused
      · cases refused
        decide
      · cases refused
        decide
    rw [refused] at placed
    have gone : d.stat (ofComponents true place) = .error (fault "stat" (ofComponents true place) refusal) := by
      rw [stat, lookUp, resolve, placed]
    have climbs_ := climbs_clean_iff (ofComponents true place)
    rw [isClean] at climbs_
    rw [readable, if_neg (by simpa using some_)]
    by_cases level : Path.IsLevel (ofComponents true place)
    · simp only [isClean, if_pos level, if_neg (climbs_.not.mpr (not_not.mpr level)), gone]
      exact if_neg present
    · simp only [isClean, if_neg level, if_pos (climbs_.mpr level)]

/-! ### Source paths -/

/-- The path of a file that a source path leads to. -/
theorem SourceLoader.readable_of_locate (proper : d.IsProper)
    (faithful : l.FaithfulOn (fun _ => True) d roots) (located : (l.locate d name).1 = .ok (some (.file path))) :
    readable d path = if Path.IsLevel path then .ok path else .error (climbing path) := by
  rw [faithful.locate_eq (.refl d roots) trivial] at located
  obtain ⟨⟨root, -, rfl⟩, isFile⟩ := Disk.mayHold_of_sourceBelow located
  obtain ⟨place, file, isAt⟩ := Disk.isFile_iff.mp isFile
  rw [Reader.readable_eq proper (Disk.resolve_eq_file.mpr ⟨place, isAt⟩),
    Path.clean_join root (relativePath_ne_empty name)]

/-! ### Both -/

/-- **What is found can be read** exactly if its path is level, and the system takes the path. The check
of a path accepts those that are level and no others, whether or not something is there. -/
theorem readable_found (proper : d.IsProper) :
    (∀ path, path ≠ "" → checkedPath path =
      if Path.IsLevel path then .ok (Path.clean path) else .error (climbing path)) ∧
    (∀ path entry, d.resolve path = .ok entry → readable d path =
      if Path.IsLevel path then .ok (Path.clean path) else .error (climbing path)) ∧
    (∀ patterns files, d.scan patterns = .ok files → ∀ path ∈ files, readable d path =
      if Path.IsLevel path then
        match refusedPath? path with
        | none => .ok path
        | some refusal => .error (.system (Disk.fault "stat" path refusal))
      else .error (climbing path)) ∧
    (∀ roots l, SourceLoader.FaithfulOn (fun _ => True) d roots l → ∀ name path,
      (l.locate d name).1 = .ok (some (.file path)) →
        readable d path = if Path.IsLevel path then .ok path else .error (climbing path)) := by
  refine ⟨fun path some_ => checkedPath_eq some_, fun path entry found => Reader.readable_eq proper found,
    fun patterns files scanned path member => Disk.readable_of_scan proper scanned member, ?_⟩
  exact fun roots l faithful name path located => SourceLoader.readable_of_locate proper faithful located

/-- Two source files, one of them in a directory with two points in its name. -/
def dottedDisk : Disk :=
  SourceLoader.diskOf [(["s"], "B", "class B \x7b\x7d"), (["x..y"], "A", "class A \x7b\x7d")]

theorem proper_dotted : dottedDisk.IsProper := by
  decide

theorem scan_dotted : dottedDisk.scan ["..."] = .ok ["/s/B.java", "/x..y/A.java"] := by
  have ordered : ["/s/B.java", "/x..y/A.java"].Pairwise (· < ·) := by decide
  have place : dottedDisk.place "/" = .ok [] := eq_ok_of_toOption (by decide)
  have walked : dottedDisk.walk "/" isEntered false = .ok ["/s/B.java", "/x..y/A.java"] := by
    have listed : (dottedDisk.met [] isEntered).filterMap (Disk.shown? "/") = ["/s/B.java", "/x..y/A.java"] := by
      decide +kernel
    refine (Disk.walk_eq_ok_iff place).mpr ⟨by decide, ?_⟩
    rw [listed, Text.sorted_of_pairwise ordered]
  have pattern : Pattern.ofText "..." = ⟨".", true⟩ := by decide
  exact Disk.scan_tree pattern (by decide) (by decide) walked (by decide) ordered

theorem readable_found_dotted : dottedDisk.IsProper ∧
    dottedDisk.scan ["..."] = .ok ["/s/B.java", "/x..y/A.java"] ∧
    readable dottedDisk "/s/B.java" = .ok "/s/B.java" := by
  obtain ⟨-, -, scans, -⟩ := readable_found proper_dotted
  refine ⟨proper_dotted, scan_dotted, (scans _ _ scan_dotted "/s/B.java" (by decide)).trans ?_⟩
  rw [if_pos (by decide)]
  rfl

/-- **A name with two points** is gone through by a scan and by a source path, and what is found in this
way is not read. -/
theorem dotted_not_readable :
    dottedDisk.scan ["..."] = .ok ["/s/B.java", "/x..y/A.java"] ∧
    readable dottedDisk "/x..y/A.java" = .error (climbing "/x..y/A.java") ∧
    ((SourceLoader.ofRoots ["x..y"]).locate dottedDisk "A").1 = .ok (some (.file "x..y/A.java")) ∧
    readable dottedDisk "x..y/A.java" = .error (climbing "x..y/A.java") ∧
    ".." ∉ Path.components "x..y/A.java" ∧
    checkedPath "x..y/A.java" = .error (climbing "x..y/A.java") := by
  have fresh : SourceLoader.FaithfulOn (fun _ => True) dottedDisk ["x..y"] (.ofRoots ["x..y"]) :=
    SourceLoader.faithful_sharing (Reader.faithful_fresh dottedDisk) ["x..y"]
  have located : ((SourceLoader.ofRoots ["x..y"]).locate dottedDisk "A").1 =
      .ok (some (.file "x..y/A.java")) :=
    eq_ok_of_toOption (by decide)
  refine ⟨scan_dotted, ?_, located, ?_, by decide, ?_⟩
  · rw [Disk.readable_of_scan proper_dotted scan_dotted (by decide), if_neg (by decide)]
  · rw [SourceLoader.readable_of_locate proper_dotted fresh located, if_neg (by decide)]
  · rw [checkedPath_eq (by decide), if_neg (by decide)]

end Forwarder
