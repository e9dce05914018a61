/-
**A scan is an operation on sets of roots.** The files that it finds are those that one of the roots covers,
each under the absolute path of its place. So it does not matter how often a root is given, in which spelling
and in which order, nor whether one root is inside another.

* `Disk.IsSourceName`, `Disk.IsOpen` — the files and the directories that count.
* `Disk.rootFor` — the root that a pattern names.
* `Disk.ReachedFrom`, `Disk.meets_iff` — the places that a scan of a root comes to.
* `Disk.Covers`, `Disk.covers_iff` — the files that a root stands for.
* **`Disk.scan_roots`** — a scan of any roots that are there.
* `Disk.deep_not_scanned` — directories too deep for the system to look them up.
-/

import Forwarder.Proofs.Batch.Rescan
import Forwarder.Proofs.Text.Order

namespace Forwarder.Disk

open Forwarder.Path (IsEntryName ofComponents)

variable {d : Disk} {patterns : List String} {folder name path text : String} {place : Place}

/-! ### Names -/

/-- The name of a file of declarations, and not of a description of a package or module. -/
structure IsSourceName (name : String) : Prop where
  ending : ∃ stem, name = stem ++ ".java"
  package : name ≠ "package-info.java"
  module_ : name ≠ "module-info.java"

theorem isSourceFile_iff : isSourceFile name = true ↔ IsSourceName name := by
  have ends : Text.endsIn name ".java" = true ↔ ∃ stem, name = stem ++ ".java" := by
    rw [Text.endsIn, List.isSuffixOf_iff_suffix]
    constructor
    · rintro ⟨stem, split⟩
      refine ⟨String.ofList stem, String.toList_injective ?_⟩
      simpa using split.symm
    · rintro ⟨stem, rfl⟩
      exact ⟨stem.toList, (String.toList_append ..).symm⟩
  rw [isSourceFile, Bool.and_eq_true, Bool.and_eq_true, ends, bne_iff_ne, bne_iff_ne, and_assoc]
  exact ⟨fun ⟨ending, package, module_⟩ => ⟨ending, package, module_⟩,
    fun ⟨ending, package, module_⟩ => ⟨ending, package, module_⟩⟩

/-- A directory that is gone through: it is not hidden, and not one of those passed over. -/
structure IsOpen (folder : String) : Prop where
  shown : folder.toList.head? ≠ some '.'
  kept : folder ∉ passedOver

theorem isEntered_iff (isName : IsEntryName folder) : isEntered folder = true ↔ IsOpen folder := by
  have hidden : Text.startsBy folder "." = true ↔ folder.toList.head? = some '.' := by
    rw [Text.startsBy, List.isPrefixOf_iff_prefix]
    cases folder.toList with
    | nil => simp
    | cons c rest => simp [eq_comm]
  have different : (folder != "." && folder != "..") = true := by
    rw [Bool.and_eq_true, bne_iff_ne, bne_iff_ne]
    exact ⟨isName.here, isName.parent⟩
  rw [isEntered, Bool.and_assoc, different, Bool.and_true, Bool.and_eq_true, Bool.not_eq_true',
    Bool.not_eq_true', ← Bool.not_eq_true, ← Bool.not_eq_true, hidden, List.contains_iff_mem]
  exact ⟨fun both => ⟨both.1, both.2⟩, fun isOpen => ⟨isOpen.shown, isOpen.kept⟩⟩

/-! ### Roots -/

/-- The directory that a pattern names, and whether the tree below it is meant. -/
def rootFor (d : Disk) (pattern : Pattern) : Place × Bool :=
  (d.spot pattern.base, pattern.recursive)

/-- The place is directly in the root, or below it where the tree is meant, through directories that are
open. -/
def ReachedFrom (root : Place × Bool) (place : Place) : Prop :=
  ∃ folders name, place = root.1 ++ folders ++ [name] ∧
    (folders = [] ∨ root.2 = true ∧ ∀ folder ∈ folders, IsOpen folder)

/-- A file at the place lies directly in the root, or below it where the tree is meant, through directories
that are open. -/
def Covers (root : Place × Bool) (place : Place) : Prop :=
  ∃ folders name, place = root.1 ++ folders ++ [name] ∧ IsSourceName name ∧
    (folders = [] ∨ root.2 = true ∧ ∀ folder ∈ folders, IsOpen folder)

/-- A pattern names the same place under the absolute path that is looked at. -/
theorem spot_rootOf (proper : d.IsProper) (pattern : Pattern) :
    d.spot (d.rootOf pattern) = d.spot pattern.base := by
  have cwd : d.spot d.cwdText = d.cwd := by
    rw [spot_of_absolute d d.isRooted_cwdText, cwdText,
      Path.components_ofComponents (proper.normal (isDirAt_iff.mp proper.cwd))]
  have some_ : d.cwdText ≠ "" := Path.ne_empty_ofComponents (proper.normal (isDirAt_iff.mp proper.cwd))
  rw [rootOf, Path.absolute]
  split
  · exact spot_clean d pattern.base
  · next relative =>
    by_cases isEmpty : pattern.base = ""
    · rw [isEmpty, join_empty some_, spot_clean, cwd]
      rfl
    · rw [spot_join d d.cwdText (Bool.eq_false_iff.mpr relative) isEmpty, cwd, spot, start, if_neg relative]

/-- The absolute path of a root is determined by its place. -/
theorem rootOf_eq (d : Disk) (pattern : Pattern) :
    d.rootOf pattern = ofComponents true (d.spot (d.rootOf pattern)) := by
  have rooted := d.isRooted_absolute pattern.base
  rw [← rootOf] at rooted
  rw [spot_of_absolute d rooted.absolute]
  conv_lhs => rw [← rooted.clean, Path.clean, rooted.absolute]

/-- The directories that the walk of a pattern goes through. -/
theorem all_entered_iff {pattern : Pattern} {folders : List String}
    (names : ∀ folder ∈ folders, IsEntryName folder) : folders.all pattern.walking.entered = true ↔
      folders = [] ∨ pattern.recursive = true ∧ ∀ folder ∈ folders, IsOpen folder := by
  rw [List.all_eq_true, Pattern.walking]
  cases pattern.recursive with
  | false =>
    simp only [Bool.false_eq_true, if_false, false_and, or_false, List.eq_nil_iff_forall_not_mem]
  | true =>
    simp only [if_true, true_and]
    rw [forall₂_congr fun folder member => isEntered_iff (names folder member)]
    exact ⟨.inr, fun through => through.elim (fun none_ => none_ ▸ List.forall_mem_nil _) id⟩

/-- **What a walk comes to** is its root and what is reached from there. -/
theorem meets_iff (proper : d.IsProper) {pattern : Pattern} {entry : Entry} (found : d.entry? place = some entry) :
    d.Meets pattern place ↔ place = (d.rootFor pattern).1 ∨ ReachedFrom (d.rootFor pattern) place := by
  have names {folders : Place} {name : String} (split : place = (d.rootFor pattern).1 ++ folders ++ [name]) :
      ∀ folder ∈ folders, IsEntryName folder := fun folder member =>
    (proper.isNamed found folder (by rw [split]; simp [member])).1
  rw [Meets, spot_rootOf proper]
  constructor
  · rintro ⟨rest, isPlace, inside⟩
    rcases List.eq_nil_or_concat rest with rfl | ⟨folders, name, rfl⟩
    · exact .inl (isPlace.trans (List.append_nil _))
    · rw [List.concat_eq_append, ← List.append_assoc] at isPlace
      rw [List.concat_eq_append, List.dropLast_concat, all_entered_iff (names isPlace)] at inside
      exact .inr ⟨folders, name, isPlace, inside⟩
  · rintro (isRoot | ⟨folders, name, isPlace, through⟩)
    · exact ⟨[], isRoot.trans (List.append_nil _).symm, rfl⟩
    · refine ⟨folders ++ [name], by rw [isPlace, List.append_assoc]; rfl, ?_⟩
      rw [List.dropLast_concat]
      exact (all_entered_iff (names isPlace)).mpr through

/-- **The files that a pattern asks for** are those that its root covers. -/
theorem covers_iff (proper : d.IsProper) {pattern : Pattern} (isDir : d.isDir (d.rootOf pattern) = true)
    {file : File} (isFile : d.file? place = some file) :
    d.IsAskedFor pattern place ↔ Covers (d.rootFor pattern) place := by
  have found := file?_eq_some.mp isFile
  have notRoot : place ≠ (d.rootFor pattern).1 := by
    obtain ⟨top, isTop, isDirAt⟩ := isDir_iff.mp isDir
    rw [rootFor, ← spot_rootOf proper, ← spot_of_place isTop]
    rintro rfl
    rw [isDirAt_iff.mp isDirAt] at found
    cases found
  have base {above : Place} {name : String} (split : place = above ++ [name]) :
      Path.base (ofComponents true place) = name := by
    have normal := proper.normal found
    rw [split] at normal ⊢
    exact Path.base_ofComponents normal
  have asked : d.IsAskedFor pattern place ↔
      d.Meets pattern place ∧ isSourceFile (Path.base (ofComponents true place)) = true := by
    simp only [IsAskedFor, Meets, ← and_assoc, exists_and_right]
  rw [asked, meets_iff proper found, or_iff_right notRoot, ReachedFrom, Covers]
  simp only [← exists_and_right]
  refine exists₂_congr fun folders name => ?_
  rw [and_assoc]
  refine and_congr_right fun isPlace => ?_
  rw [base isPlace, isSourceFile_iff, and_comm]

/-- **A pattern can be walked** exactly if the system takes the absolute path of all that is reached from its
root. -/
theorem isWalkable_iff (proper : d.IsProper) {pattern : Pattern} (isDir : d.isDir (d.rootOf pattern) = true) :
    d.IsWalkable pattern ↔ ∀ place entry, d.entry? place = some entry →
      ReachedFrom (d.rootFor pattern) place → refusedPath? (ofComponents true place) = none := by
  have isRoot : refusedPath? (ofComponents true (d.rootFor pattern).1) = none := by
    obtain ⟨top, isTop, -⟩ := isDir_iff.mp isDir
    rw [rootFor, ← spot_rootOf proper, ← rootOf_eq]
    exact refusedPath?_of_place isTop
  constructor
  · exact fun walkable place entry found reached =>
      walkable.allowed place entry found ((meets_iff proper found).mpr (.inr reached))
  · refine fun allowed => ⟨isDir, fun place entry found meets => ?_⟩
    rcases (meets_iff proper found).mp meets with rfl | reached
    · exact isRoot
    · exact allowed place entry found reached

/-! ### Scans -/

/-- The roots that patterns name. -/
def rootsFor (d : Disk) (patterns : List String) : List (Place × Bool) :=
  patterns.map fun text => d.rootFor (.ofText text)

/-- **The files of a scan** are those that one of the roots covers. -/
theorem mem_scan_iff (proper : d.IsProper) {files : List String} (scanned : d.scan patterns = .ok files) :
    path ∈ files ↔ ∃ place file, d.file? place = some file ∧ path = ofComponents true place ∧
      ∃ root ∈ d.rootsFor patterns, Covers root place := by
  have walkable := (exists_scan_iff proper).mp ⟨files, scanned⟩
  rw [mem_scan proper scanned]
  refine exists₂_congr fun place file => and_congr_right fun isFile => ?_
  rw [and_comm, and_congr_right_iff]
  rintro rfl
  simp only [IsLookedAt, rootsFor, List.mem_map, exists_exists_and_eq_and]
  exact exists_congr fun text => and_congr_right fun member => covers_iff proper (walkable text member).isDir isFile

/-- Patterns that name the same places are walked in the same way. -/
theorem isWalkable_congr (proper : d.IsProper) {pattern other : Pattern}
    (same : d.rootFor pattern = d.rootFor other) (walkable : d.IsWalkable pattern) : d.IsWalkable other := by
  have sameSpot : d.spot pattern.base = d.spot other.base := congrArg Prod.fst same
  have sameRoot : d.rootOf pattern = d.rootOf other := by
    rw [rootOf_eq, rootOf_eq d other, spot_rootOf proper, spot_rootOf proper, sameSpot]
  have isDir : d.isDir (d.rootOf other) = true := sameRoot ▸ walkable.isDir
  rw [isWalkable_iff proper isDir, ← same]
  exact (isWalkable_iff proper walkable.isDir).mp walkable

/-- **The same roots** are scanned with the same result, whatever the patterns are that name them. -/
theorem scan_congr (proper : d.IsProper) {files others : List String} (scanned : d.scan patterns = .ok files)
    (same : ∀ root, root ∈ d.rootsFor others ↔ root ∈ d.rootsFor patterns) : d.scan others = .ok files := by
  have walkable := (exists_scan_iff proper).mp ⟨files, scanned⟩
  have walkable' : ∀ text ∈ others, d.IsWalkable (.ofText text) := fun text member => by
    obtain ⟨other, isOther, sameRoot⟩ := List.mem_map.mp ((same _).mp (List.mem_map_of_mem member))
    exact isWalkable_congr proper sameRoot (walkable other isOther)
  obtain ⟨files', scanned'⟩ := (exists_scan_iff proper).mpr walkable'
  have sameFiles : files' = files := by
    refine List.Pairwise.eq_of_mem_iff (pairwise_scan scanned') (pairwise_scan scanned) fun path => ?_
    simp only [mem_scan_iff proper scanned', mem_scan_iff proper scanned, same]
  rw [scanned', sameFiles]

/-- **A scan of several lists of patterns** is the union of their scans. -/
theorem scan_append (proper : d.IsProper) {front back files found : List String}
    (scanned : d.scan front = .ok files) (others : d.scan back = .ok found) :
    d.scan (front ++ back) = .ok (Text.sortedUnique (files ++ found)) := by
  have walkable : ∀ text ∈ front ++ back, d.IsWalkable (.ofText text) :=
    List.forall_mem_append.mpr ⟨(exists_scan_iff proper).mp ⟨files, scanned⟩,
      (exists_scan_iff proper).mp ⟨found, others⟩⟩
  obtain ⟨all, scanned'⟩ := (exists_scan_iff proper).mpr walkable
  have isUnion : all = Text.sortedUnique (files ++ found) := by
    refine List.Pairwise.eq_of_mem_iff (pairwise_scan scanned') (Text.pairwise_sortedUnique _) fun path => ?_
    rw [Text.mem_sortedUnique, List.mem_append, mem_scan_iff proper scanned', mem_scan_iff proper scanned,
      mem_scan_iff proper others, rootsFor, List.map_append]
    simp only [List.mem_append, or_and_right, exists_or, and_or_left]
    rfl
  rw [scanned', isUnion]

/-- **A scan is an operation on sets of roots.** If all roots are there, it succeeds exactly if the system takes
the absolute path of all that is reached from one of them. Then

* it finds the files that one of them covers, under their absolute paths and in the order of their bytes;
* any other patterns that name the same roots find the same;
* with more patterns it finds what both find, in order and each once. -/
theorem scan_roots (proper : d.IsProper)
    (dirs : ∀ text ∈ patterns, d.isDir (d.rootOf (.ofText text)) = true) :
    ((∃ files, d.scan patterns = .ok files) ↔ ∀ root ∈ d.rootsFor patterns, ∀ place entry,
      d.entry? place = some entry → ReachedFrom root place → refusedPath? (ofComponents true place) = none) ∧
    ∀ files, d.scan patterns = .ok files →
      (files.map Text.bytes).Pairwise (· < ·) ∧
      (∀ path, path ∈ files ↔ ∃ place file, d.file? place = some file ∧ path = ofComponents true place ∧
        ∃ root ∈ d.rootsFor patterns, Covers root place) ∧
      (∀ others, (∀ root, root ∈ d.rootsFor others ↔ root ∈ d.rootsFor patterns) →
        d.scan others = .ok files) ∧
      ∀ more found, d.scan more = .ok found →
        d.scan (patterns ++ more) = .ok (Text.sortedUnique (files ++ found)) := by
  constructor
  · rw [exists_scan_iff proper, rootsFor, List.forall_mem_map]
    exact forall₂_congr fun text member => isWalkable_iff proper (dirs text member)
  · intro files scanned
    refine ⟨?_, fun path => mem_scan_iff proper scanned, fun others same => scan_congr proper scanned same,
      fun more found => scan_append proper scanned⟩
    exact List.pairwise_map.mpr ((pairwise_scan scanned).imp Text.bytes_lt_iff.mpr)

/-- Sources in a tree, some of them in a directory that is passed over. -/
def nestedDisk : Disk :=
  (SourceLoader.diskOf [(["src", "build"], "B", "class B \x7b\x7d")]).put ["src", "A.java"]
    (.file ⟨.text "class A \x7b\x7d", .given 0⟩)

/-- A directory that is passed over below one root is a root of its own. -/
theorem scan_roots_nested : nestedDisk.IsProper ∧ ∃ files,
    nestedDisk.scan ["src/...", "src/build"] = .ok files ∧ (files.map Text.bytes).Pairwise (· < ·) ∧
      "/src/build/B.java" ∈ files ∧
      nestedDisk.scan ["./src/build/", "/src/../src/...", "src/build"] = .ok files := by
  have proper : nestedDisk.IsProper := by decide
  have roots : nestedDisk.rootsFor ["src/...", "src/build"] = [(["src"], true), (["src", "build"], false)] := by
    decide
  have spelled : nestedDisk.rootsFor ["./src/build/", "/src/../src/...", "src/build"] =
      [(["src", "build"], false), (["src"], true), (["src", "build"], false)] := by
    decide
  have dirs : ∀ text ∈ ["src/...", "src/build"], nestedDisk.isDir (nestedDisk.rootOf (.ofText text)) = true := by
    decide
  have short : ∀ held ∈ nestedDisk.entries, refusedPath? (ofComponents true held.1) = none := by decide
  obtain ⟨succeeds, finds⟩ := scan_roots proper dirs
  have allowed (place : Place) (entry : Entry) (found : nestedDisk.entry? place = some entry) :
      refusedPath? (ofComponents true place) = none := by
    by_cases isRoot : place = []
    · rw [isRoot]
      decide
    · exact short (place, entry) ((proper.entry?_eq_some_iff isRoot).mp found)
  obtain ⟨files, scanned⟩ := succeeds.mpr fun _ _ place entry found _ => allowed place entry found
  obtain ⟨ordered, member, others, -⟩ := finds files scanned
  refine ⟨proper, files, scanned, ordered, (member _).mpr ?_, others _ fun root => ?_⟩
  · have covers : Covers (["src", "build"], false) ["src", "build", "B.java"] :=
      ⟨[], "B.java", rfl, ⟨⟨"B", rfl⟩, by decide, by decide⟩, .inl rfl⟩
    exact ⟨["src", "build", "B.java"], ⟨.text "class B \x7b\x7d", .given 0⟩, by decide,
      by decide, _, by rw [roots]; simp, covers⟩
  · rw [roots, spelled]
    simp only [List.mem_cons, List.not_mem_nil, or_false]
    rw [or_left_comm, or_self]

/-! ### Deep places -/

/-- Directories of one name, each in the one before. -/
def chain (name : String) : Nat → Disk
  | 0 => ⟨[], [], 0⟩
  | n + 1 => (chain name n).put (List.replicate (n + 1) name) .dir

theorem chain_spec (isName : IsEntryName name) (short : isTooLong name = false) (n : Nat) :
    (chain name n).IsProper ∧ (chain name n).isDirAt (List.replicate n name) = true := by
  induction n with
  | zero =>
    have empty : (⟨[], [], 0⟩ : Disk).IsProper ∧ (⟨[], [], 0⟩ : Disk).isDirAt [] = true := by decide
    exact empty
  | succ n ih =>
    have isInner : List.replicate (n + 1) name ≠ [] := List.cons_ne_nil _ _
    have named : IsNamed (List.replicate (n + 1) name) := fun c member =>
      List.eq_of_mem_replicate member ▸ ⟨isName, short⟩
    have parent : (chain name n).isDirAt (List.replicate (n + 1) name).dropLast = true := by
      rw [List.dropLast_replicate]
      exact ih.2
    refine ⟨ih.1.put isInner named parent (.inl rfl), isDirAt_iff.mpr ?_⟩
    rw [chain, entry?_put _ _ _ _ isInner, if_pos rfl]

theorem cwd_chain (name : String) (n : Nat) : (chain name n).cwd = [] := by
  induction n with
  | zero => rfl
  | succ n ih => exact ih

theorem spot_here (d : Disk) : d.spot "." = d.cwd := by
  rw [spot, start, if_neg (by decide)]
  rfl

/-- The root of the whole tree is there in every tree. -/
theorem IsProper.isDir_root (proper : d.IsProper) : d.isDir (ofComponents true []) = true := by
  have isRoot : d.entry? [] = some .dir := rfl
  have placed : d.place (ofComponents true []) = .ok [] := by
    rw [proper.place_absolute isRoot]
    rfl
  exact isDir_iff.mpr ⟨[], placed, rfl⟩

/-- The system takes no path of more than 4095 bytes. -/
theorem refused_of_long (long : 4095 < path.utf8ByteSize) : refusedPath? path ≠ none := by
  rw [refusedPath?]
  split_ifs <;> simp

theorem utf8ByteSize_absolute (n : Nat) (name : String) :
    (ofComponents true (List.replicate (n + 1) name)).utf8ByteSize = (n + 1) * (1 + name.utf8ByteSize) := by
  have joined : (Text.join (String.singleton '/') (name :: List.replicate n name)).utf8ByteSize =
      name.utf8ByteSize + n * (1 + name.utf8ByteSize) :=
    Text.utf8ByteSize_join_replicate name n
  have slash : "/".utf8ByteSize = 1 := by decide
  rw [ofComponents, if_pos rfl, String.utf8ByteSize_append, slash, Nat.succ_mul]
  refine (congrArg _ joined).trans ?_
  omega

/-- A name of the greatest length. -/
def longName : String :=
  Text.times 255 "d"

theorem utf8ByteSize_longName : longName.utf8ByteSize = 255 := by
  rw [longName, Text.utf8ByteSize_times]
  decide

theorem isEntryName_longName : IsEntryName longName := by
  have other {name : String} (size : name.utf8ByteSize ≠ 255) : longName ≠ name :=
    fun same => size (same ▸ utf8ByteSize_longName)
  exact ⟨other (by decide), other (by decide), other (by decide),
    fun member => absurd (Text.mem_of_mem_times member) (by decide)⟩

theorem isOpen_longName : IsOpen longName := by
  have otherSize : ∀ name ∈ passedOver, name.utf8ByteSize ≠ 255 := by decide
  refine ⟨?_, fun member => otherSize _ member utf8ByteSize_longName⟩
  rw [longName, Text.times_succ, String.toList_append]
  exact fun same => absurd (Option.some.inj same) (by decide)

/-- **Directories that are too deep** for the system to look them up: a scan of the root is refused. -/
theorem deep_not_scanned : (chain longName 16).IsProper ∧
    (chain longName 16).isDir ((chain longName 16).rootOf (.ofText "...")) = true ∧
    ¬∃ files, (chain longName 16).scan ["..."] = .ok files := by
  have fits : isTooLong longName = false := by
    rw [isTooLong, utf8ByteSize_longName]
    decide
  obtain ⟨proper, isDirAt⟩ := chain_spec isEntryName_longName fits 16
  have pattern : Pattern.ofText "..." = ⟨".", true⟩ := rfl
  have isHere : (chain longName 16).spot "." = [] := (spot_here _).trans (cwd_chain longName 16)
  have isRoot : (chain longName 16).rootFor ⟨".", true⟩ = ([], true) := by rw [rootFor, isHere]
  have isDir : (chain longName 16).isDir ((chain longName 16).rootOf (.ofText "...")) = true := by
    rw [pattern, rootOf_eq, spot_rootOf proper, isHere]
    exact proper.isDir_root
  refine ⟨proper, isDir, fun scanned => ?_⟩
  have walkable := (exists_scan_iff proper).mp scanned "..." List.mem_cons_self
  rw [isWalkable_iff proper isDir, pattern, isRoot] at walkable
  have reached : ReachedFrom ([], true) (List.replicate 16 longName) :=
    ⟨List.replicate 15 longName, longName, rfl,
      .inr ⟨rfl, fun _ member => List.eq_of_mem_replicate member ▸ isOpen_longName⟩⟩
  refine refused_of_long ?_ (walkable _ _ (isDirAt_iff.mp isDirAt) reached)
  rw [utf8ByteSize_absolute, utf8ByteSize_longName]
  decide

end Forwarder.Disk
