/-
**What a scan finds** comes in order, each file once.

* `pairwise_scan` — the files of a scan are in order.
* `Disk.walk_eq_ok_iff` — when a walk succeeds, and with which files.
* `Disk.scan_tree` — the files of one tree, from a walk through it.
* `Disk.Lists`, `Disk.scan_listed` — the files below `src`, from what a disk holds.
-/

import Forwarder.Batch.Scan
import Forwarder.Proofs.Computed
import Forwarder.Proofs.Text.Order

namespace Forwarder

theorem pairwise_scan {d : Disk} {patterns files : List String} (found : d.scan patterns = .ok files) :
    files.Pairwise (· < ·) := by
  rw [Disk.scan] at found
  split at found
  · cases found
  · cases found
    exact Text.pairwise_sortedUnique _

namespace Disk

variable {d : Disk} {text : String} {found : List String}

/-- The files of several patterns. -/
theorem scanAll_cons (d : Disk) (text : String) (texts : List String) : d.scanAll (text :: texts) =
    match d.scanOne (.ofText text) with
    | .error failure => .error failure
    | .ok found =>
      match d.scanAll texts with
      | .error failure => .error failure
      | .ok more => .ok (found ++ more) := by
  -- Lean would derive the equations of `scanAll` by evaluating the pattern.
  delta scanAll scanAll._f
  rfl

theorem scanAll_single (scanned : d.scanOne (.ofText text) = .ok found) :
    d.scanAll [text] = .ok found := by
  rw [scanAll_cons, scanned]
  exact congrArg Except.ok (List.append_nil found)

/-- **A walk succeeds** exactly if the system refuses nothing of what it comes to. -/
theorem walk_eq_ok_iff {root : String} {top : Place} (isTop : d.place root = .ok top) {entered : String → Bool} :
    d.walk root entered false = .ok found ↔ (∀ reached ∈ d.met top entered, unseen? root reached.1 = none) ∧
      Text.sorted ((d.met top entered).filterMap (shown? root)) = found := by
  have none_ : d.unseen root top entered = [] ↔ ∀ reached ∈ d.met top entered, unseen? root reached.1 = none := by
    rw [unseen, List.filterMap_eq_nil_iff]
    exact forall₂_congr fun reached _ => Option.map_eq_none_iff
  rw [← none_, walk, isTop]
  dsimp only
  cases d.unseen root top entered <;> simp

/-- A scan of one tree finds what a walk through it finds. -/
theorem scan_tree {base root : String} {files : List String}
    (pattern : Pattern.ofText text = ⟨base, true⟩) (absolute : Path.absolute d.cwdText base = root)
    (isDir : d.isDir root = true) (walked : d.walk root isEntered false = .ok found)
    (wanted : (found.filter fun path => isSourceFile (Path.base path)).map Path.clean = files)
    (ordered : files.Pairwise (· < ·)) : d.scan [text] = .ok files := by
  have matched : d.matching (Pattern.walking ⟨base, true⟩) root =
      .ok (found.filter fun path => isSourceFile (Path.base path)) := by
    have entered : (Pattern.walking ⟨base, true⟩).entered = isEntered := rfl
    have strict : (Pattern.walking ⟨base, true⟩).lenient = false := rfl
    rw [matching, entered, strict, walked]
    rfl
  have collected : d.collect (Pattern.walking ⟨base, true⟩) [root] = .ok files := by
    rw [collect, collectAll, matched]
    dsimp only [collectAll]
    rw [wanted, List.append_nil, Text.sortedUnique_of_pairwise ordered]
  have scanned : d.scanOne ⟨base, true⟩ = .ok files := by
    rw [scanOne]
    dsimp only
    rw [absolute, if_pos isDir, collected]
  rw [scan, scanAll_single (pattern ▸ scanned)]
  exact congrArg Except.ok (Text.sortedUnique_of_pairwise ordered)

/-- The disk holds these files below `src`, kept in order, and a scan takes all of them: the system takes the
paths of all that it comes to. -/
def Lists (d : Disk) (files : List String) : Prop :=
  Path.absolute d.cwdText "src" = "/src" ∧ (d.place "/src").toOption = some ["src"] ∧ d.isDir "/src" = true ∧
    (∀ reached ∈ d.met ["src"] isEntered, unseen? "/src" reached.1 = none) ∧
    (d.met ["src"] isEntered).filterMap (shown? "/src") = files ∧
    (files.filter fun path => isSourceFile (Path.base path)).map Path.clean = files ∧
    files.Pairwise (· < ·)

instance (d : Disk) (files : List String) : Decidable (d.Lists files) :=
  inferInstanceAs (Decidable (_ ∧ _))

/-- These are the files that a scan of the tree below `src` finds. -/
theorem scan_listed {files : List String} (lists : d.Lists files) : d.scan ["src/..."] = .ok files := by
  obtain ⟨absolute, place, isDir, seen, listed, wanted, ordered⟩ := lists
  have pattern : Pattern.ofText "src/..." = ⟨"src", true⟩ := by decide +kernel
  have walked : d.walk "/src" isEntered false = .ok files :=
    (walk_eq_ok_iff (eq_ok_of_toOption place)).mpr ⟨seen, by rw [listed, Text.sorted_of_pairwise ordered]⟩
  exact scan_tree pattern absolute isDir walked wanted ordered

end Disk

end Forwarder
