/-
**Scanning again.** A scan finds a file by its place alone, and a file that is found is read under the
absolute path of its place. So what a second scan finds differs from what the first one has found only
where the files differ.

* `Disk.spot_of_absolute` — an absolute path names the place that its components spell.
* `Disk.exists_walk_iff`, `Disk.mem_walk` — when a walk succeeds, and what it finds.
* `Disk.IsAskedFor`, `Disk.IsLookedAt` — a file at the place is looked at, by a pattern or by a scan.
* **`Disk.mem_scan`** — the files that a scan finds.
* `Disk.exists_scan_iff` — a scan succeeds where all its patterns can be walked.
* `Disk.extractionOf_eq`, `Disk.extractionOf_of_unmatched` — what the text of a file comes to.
* **`Disk.declaredIn_rescan`** — the declarations that two scans find.
-/

import Mathlib.Data.List.Sort
import Forwarder.Proofs.Batch.Pointwise
import Forwarder.Proofs.Disk.Proper

namespace Forwarder

open Forwarder.Path (IsEntryName Normal ofComponents)

namespace Disk

variable {d e : Disk} {patterns files : List String} {path text : String} {place : Place} {file : File}

/-! ### Absolute paths -/

/-- **An absolute path** names the place that its components spell. -/
theorem spot_of_absolute (d : Disk) (isAbsolute : Path.isAbsolute path = true) :
    d.spot path = Path.components path := by
  have isStart : d.start path = [] := if_pos isAbsolute
  have names : ∀ c ∈ Path.components path, IsEntryName c := fun c member =>
    ((Path.normal_components path).each c member).resolve_right fun up => by
      rw [isAbsolute] at up
      exact absurd up.2 Bool.noConfusion
  rw [spot, isStart, ← Path.goal_components fun _ => rfl, Path.goal_names names, List.nil_append]

theorem IsProper.normal (proper : d.IsProper) {entry : Entry} (found : d.entry? place = some entry) :
    Normal true place := by
  have named := proper.isNamed found
  rw [← List.nil_append place]
  exact Normal.nil.append fun c member => (named c member).1

/-- **Whatever is at a place** is found under the absolute path of the place, unless this is refused. -/
theorem IsProper.place_absolute (proper : d.IsProper) {entry : Entry} (found : d.entry? place = some entry) :
    d.place (ofComponents true place) =
      match refusedPath? (ofComponents true place) with
      | some refusal => .error refusal
      | none => .ok place := by
  have isHere : Path.goal (d.ground true) place = place :=
    (Path.goal_names (fun c member => (proper.isNamed found c member).1) []).trans (List.nil_append place)
  have placed := proper.place_ofComponents (proper.normal found) (by rw [isHere]; exact found)
  rwa [isHere] at placed

/-- The path is absolute and in its shortest spelling. -/
structure IsRooted (path : String) : Prop where
  absolute : Path.isAbsolute path = true
  clean : Path.clean path = path

theorem isRooted_clean (isAbsolute : Path.isAbsolute path = true) : IsRooted (Path.clean path) :=
  ⟨(Path.isAbsolute_clean path).trans isAbsolute, Path.clean_clean path⟩

theorem IsRooted.ne_empty (rooted : IsRooted path) : path ≠ "" := by
  intro empty
  have isAbsolute := rooted.absolute
  rw [empty] at isAbsolute
  exact absurd isAbsolute (by decide)

theorem isRooted_cwdText (d : Disk) : Path.isAbsolute d.cwdText = true := by
  refine Path.isAbsolute_iff.mpr ⟨(Text.join "/" d.cwd).toList, ?_⟩
  rw [cwdText, ofComponents, if_pos rfl, String.toList_append]
  rfl

theorem join_empty {root : String} (isRoot : root ≠ "") : Path.join [root, ""] = Path.clean root := by
  have kept : [root, ""].filter (· != "") = [root] := by simp [isRoot]
  rw [Path.join]
  simp only [kept, List.isEmpty_cons, Bool.false_eq_true, if_false]
  rw [Text.join, String.intercalate_singleton]

/-- An absolute path of a directory is in its shortest spelling. -/
theorem isRooted_absolute (d : Disk) (base : String) : IsRooted (Path.absolute d.cwdText base) := by
  have isRoot := d.isRooted_cwdText
  have some_ : d.cwdText ≠ "" := by
    intro empty
    rw [empty] at isRoot
    exact absurd isRoot (by decide)
  rw [Path.absolute]
  split
  · next isAbsolute => exact isRooted_clean isAbsolute
  · by_cases isEmpty : base = ""
    · rw [isEmpty, join_empty some_]
      exact isRooted_clean isRoot
    · rw [Path.join_below some_ isEmpty, String.append_assoc]
      exact isRooted_clean ((Path.isAbsolute_append some_ _).trans isRoot)

/-- The path under which a walk returns a file below its root. -/
theorem walkedPath_below {root : String} (isRoot : root ≠ "") {rest : Place}
    (names : ∀ c ∈ rest, IsEntryName c) (some_ : rest ≠ []) :
    walkedPath root rest = ofComponents (Path.isAbsolute root) (Path.components root ++ rest) := by
  have below : Text.join "/" rest ≠ "" := by
    intro empty
    have split : Text.split '/' (Text.join (String.singleton '/') rest) = rest :=
      Text.split_join (fun c member => (names c member).free) some_
    rw [← Path.slash_eq, empty] at split
    have blank : "" ∈ rest := split ▸ by decide
    exact (names "" blank).some_ rfl
  have joined : Path.join (root :: rest) = Path.join [root, Text.join "/" rest] := by
    have kept : (root :: rest).filter (· != "") = root :: rest :=
      List.filter_eq_self.mpr (List.forall_mem_cons.mpr ⟨by simpa using isRoot,
        fun c member => by simpa using (names c member).some_⟩)
    obtain ⟨first, others, rfl⟩ := List.exists_cons_of_ne_nil some_
    rw [Path.join_below isRoot below, Path.join]
    simp only [kept, List.isEmpty_cons, Bool.false_eq_true, if_false]
    rw [Text.join, Text.join, String.intercalate_cons_cons]
  rw [walkedPath, if_neg (by simpa using some_), joined, Path.join_names names some_ isRoot]

/-- The path under which a walk returns a file is that of its place. -/
theorem walkedPath_eq (d : Disk) {root : String} (rooted : IsRooted root) {rest : Place}
    (names : ∀ c ∈ rest, IsEntryName c) :
    walkedPath root rest = ofComponents true (d.spot root ++ rest) := by
  have spelled : root = ofComponents true (Path.components root) := by
    rw [← rooted.absolute]
    exact rooted.clean.symm
  rw [spot_of_absolute d rooted.absolute]
  by_cases isHere : rest = []
  · rw [isHere, walkedPath, List.isEmpty_nil, if_pos rfl, List.append_nil, ← spelled]
  · rw [walkedPath_below rooted.ne_empty names isHere, rooted.absolute]

/-! ### Walks -/

theorem refusedPath?_of_place (found : d.place path = .ok place) : refusedPath? path = none := by
  rw [Disk.place] at found
  cases refused : refusedPath? path with
  | some refusal => rw [refused] at found; cases found
  | none => rfl

theorem eq_of_below? {top rest : Place} (isBelow : below? top place = some rest) : place = top ++ rest := by
  rw [below?] at isBelow
  split_ifs at isBelow with above
  obtain ⟨_, rfl⟩ := List.isPrefixOf_iff_prefix.mp above
  rw [List.drop_left] at isBelow
  rw [Option.some.inj isBelow]

/-- What a walk comes to. -/
theorem mem_met {top rest : Place} {entered : String → Bool} {entry : Entry} :
    (rest, entry) ∈ d.met top entered ↔ (top ++ rest, entry) ∈ d.entries ∧ rest.dropLast.all entered = true := by
  rw [met, List.mem_filterMap]
  constructor
  · rintro ⟨⟨place, other⟩, member, here⟩
    dsimp only at here
    split at here
    · next isBelow =>
      split_ifs at here with inside
      obtain ⟨rfl, rfl⟩ := Prod.mk.inj (Option.some.inj here)
      exact ⟨eq_of_below? isBelow ▸ member, inside⟩
    · cases here
  · rintro ⟨member, inside⟩
    refine ⟨_, member, ?_⟩
    have isBelow : below? top (top ++ rest) = some rest := by
      rw [below?, if_pos (List.isPrefixOf_iff_prefix.mpr (List.prefix_append _ _)), List.drop_left]
    simp only [isBelow, if_pos inside]

theorem unseen?_eq_none {root : String} {rest : Place} :
    unseen? root rest = none ↔ refusedPath? (walkedPath root rest) = none := by
  rw [unseen?, Option.map_eq_none_iff]

/-- **A walk succeeds** exactly if the system takes the paths of all that it comes to. -/
theorem exists_walk_iff {root : String} {top : Place} (isTop : d.place root = .ok top)
    {entered : String → Bool} : (∃ found, d.walk root entered false = .ok found) ↔
      ∀ rest entry, (top ++ rest, entry) ∈ d.entries → rest.dropLast.all entered = true →
        refusedPath? (walkedPath root rest) = none := by
  simp only [walk_eq_ok_iff isTop, exists_and_left, exists_eq', and_true, Prod.forall, mem_met, unseen?_eq_none,
    and_imp]

/-- The files of a walk are those of which the system takes the paths, whether or not it is lenient. -/
theorem walk_eq_of_place {root : String} {top : Place} (isTop : d.place root = .ok top) {entered : String → Bool}
    {lenient : Bool} {found : List String} (walked : d.walk root entered lenient = .ok found) :
    found = Text.sorted ((d.met top entered).filterMap (shown? root)) := by
  rw [walk, isTop] at walked
  dsimp only at walked
  split at walked
  · cases walked
  · exact (Except.ok.inj walked).symm

/-- The paths under which a walk returns the files below its root. -/
theorem mem_walk_of_place (proper : d.IsProper) {root : String} {top : Place} (isTop : d.place root = .ok top)
    {entered : String → Bool} {lenient : Bool} {found : List String}
    (walked : d.walk root entered lenient = .ok found) :
    path ∈ found ↔ ∃ rest file, d.file? (top ++ rest) = some file ∧ rest.dropLast.all entered = true ∧
      refusedPath? (walkedPath root rest) = none ∧ path = walkedPath root rest := by
  rw [walk_eq_of_place isTop walked, Text.mem_sorted, List.mem_filterMap]
  constructor
  · rintro ⟨⟨rest, _ | file⟩, member, here⟩
    · cases here
    · obtain ⟨member, inside⟩ := mem_met.mp member
      rw [shown?] at here
      split_ifs at here with allowed
      exact ⟨rest, file, proper.file?_eq_some_iff.mpr member, inside,
        unseen?_eq_none.mp (Option.isNone_iff_eq_none.mp allowed), (Option.some.inj here).symm⟩
  · rintro ⟨rest, file, isFile, inside, allowed, rfl⟩
    refine ⟨(rest, .file file), mem_met.mpr ⟨proper.file?_eq_some_iff.mp isFile, inside⟩, ?_⟩
    rw [shown?, unseen?_eq_none.mpr allowed]
    rfl

theorem place_of_walk {root : String} {entered : String → Bool} {found : List String}
    (walked : d.walk root entered false = .ok found) : d.place root = .ok (d.spot root) := by
  rw [walk] at walked
  split at walked
  · cases walked
  · next top isTop => exact spot_of_place isTop ▸ isTop

/-- The files below a directory that a walk goes through. -/
theorem mem_walk (proper : d.IsProper) {root : String} (rooted : IsRooted root)
    {entered : String → Bool} {found : List String} (walked : d.walk root entered false = .ok found) :
    path ∈ found ↔ ∃ rest file, d.file? (d.spot root ++ rest) = some file ∧
      rest.dropLast.all entered = true ∧ path = ofComponents true (d.spot root ++ rest) := by
  have isTop := place_of_walk walked
  rw [mem_walk_of_place proper isTop walked]
  refine exists₂_congr fun rest file => and_congr_right fun isFile => and_congr_right fun inside => ?_
  have named := proper.isNamed (file?_eq_some.mp isFile)
  have allowed := (exists_walk_iff isTop).mp ⟨found, walked⟩ rest _ (proper.file?_eq_some_iff.mp isFile) inside
  rw [and_iff_right allowed, d.walkedPath_eq rooted fun c inRest => (named c (List.mem_append_right _ inRest)).1]

/-! ### Scans -/

/-- The files below a directory that are collected. -/
theorem mem_collect (proper : d.IsProper) {root : String} (rooted : IsRooted root) {walking : Walking}
    (strict : walking.lenient = false) {found : List String}
    (collected : d.collect walking [root] = .ok found) :
    path ∈ found ↔ ∃ rest file, d.file? (d.spot root ++ rest) = some file ∧
      rest.dropLast.all walking.entered = true ∧
      walking.wanted (Path.base (ofComponents true (d.spot root ++ rest))) = true ∧
      path = ofComponents true (d.spot root ++ rest) := by
  have clean {rest : Place} {file : File} (isFile : d.file? (d.spot root ++ rest) = some file) :=
    Path.clean_ofComponents (proper.normal (file?_eq_some.mp isFile))
  rw [collect, collectAll, matching, strict] at collected
  cases walked : d.walk root walking.entered false with
  | error fault =>
    simp only [walked] at collected
    cases collected
  | ok paths =>
    simp only [walked, collectAll, List.append_nil] at collected
    cases collected
    rw [Text.mem_sortedUnique, List.mem_map]
    simp only [List.mem_filter, mem_walk proper rooted walked]
    constructor
    · rintro ⟨_, ⟨⟨rest, file, isFile, inside, rfl⟩, wanted⟩, rfl⟩
      exact ⟨rest, file, isFile, inside, wanted, clean isFile⟩
    · rintro ⟨rest, file, isFile, inside, wanted, rfl⟩
      exact ⟨_, ⟨⟨rest, file, isFile, inside, rfl⟩, wanted⟩, clean isFile⟩

/-- The directory of a pattern, as an absolute path. -/
def rootOf (d : Disk) (pattern : Pattern) : String :=
  Path.absolute d.cwdText pattern.base

theorem rootOf_of_cwd (same : e.cwd = d.cwd) (pattern : Pattern) : e.rootOf pattern = d.rootOf pattern := by
  rw [rootOf, rootOf, cwdText, cwdText, same]

/-- The walk of the pattern comes to the place: it is below the directory, through directories that are
entered. -/
def Meets (d : Disk) (pattern : Pattern) (place : Place) : Prop :=
  ∃ rest, place = d.spot (d.rootOf pattern) ++ rest ∧ rest.dropLast.all pattern.walking.entered = true

/-- A file at the place is one of those that the pattern asks for: it is below the directory, through
directories that are entered, and has the name of a source file. -/
def IsAskedFor (d : Disk) (pattern : Pattern) (place : Place) : Prop :=
  ∃ rest, place = d.spot (d.rootOf pattern) ++ rest ∧
    rest.dropLast.all pattern.walking.entered = true ∧
    isSourceFile (Path.base (ofComponents true place)) = true

theorem spot_rootOf_of_cwd (same : e.cwd = d.cwd) (pattern : Pattern) :
    e.spot (e.rootOf pattern) = d.spot (d.rootOf pattern) := by
  have absolute := (d.isRooted_absolute pattern.base).absolute
  rw [rootOf_of_cwd same, rootOf, spot_of_absolute e absolute, spot_of_absolute d absolute]

theorem meets_of_cwd (same : e.cwd = d.cwd) {pattern : Pattern} : e.Meets pattern place ↔ d.Meets pattern place := by
  rw [Meets, Meets, spot_rootOf_of_cwd same]

theorem isAskedFor_of_cwd (same : e.cwd = d.cwd) {pattern : Pattern} :
    e.IsAskedFor pattern place ↔ d.IsAskedFor pattern place := by
  rw [IsAskedFor, IsAskedFor, spot_rootOf_of_cwd same]

/-- The files of one pattern. -/
theorem mem_scanOne (proper : d.IsProper) {pattern : Pattern} {found : List String}
    (scanned : d.scanOne pattern = .ok found) :
    path ∈ found ↔ ∃ place file, d.file? place = some file ∧ d.IsAskedFor pattern place ∧
      path = ofComponents true place := by
  have collected : d.collect pattern.walking [d.rootOf pattern] = .ok found := by
    rw [scanOne, ← rootOf] at scanned
    split_ifs at scanned
    cases collected : d.collect pattern.walking [d.rootOf pattern] with
    | ok paths =>
      rw [collected] at scanned
      exact scanned
    | error failure =>
      rw [collected] at scanned
      cases scanned
  have strict : pattern.walking.lenient = false := rfl
  have isWanted : pattern.walking.wanted = isSourceFile := rfl
  rw [mem_collect proper (d.isRooted_absolute pattern.base) strict collected, isWanted, ← rootOf]
  constructor
  · rintro ⟨rest, file, isFile, inside, wanted, rfl⟩
    exact ⟨_, file, isFile, ⟨rest, rfl, inside, wanted⟩, rfl⟩
  · rintro ⟨_, file, isFile, ⟨rest, rfl, inside, wanted⟩, rfl⟩
    exact ⟨rest, file, isFile, inside, wanted, rfl⟩

/-- A file at the place is looked at by a scan of the patterns. -/
def IsLookedAt (d : Disk) (patterns : List String) (place : Place) : Prop :=
  ∃ text ∈ patterns, d.IsAskedFor (.ofText text) place

theorem isLookedAt_of_cwd (same : e.cwd = d.cwd) :
    e.IsLookedAt patterns place ↔ d.IsLookedAt patterns place :=
  exists_congr fun _ => and_congr_right fun _ => isAskedFor_of_cwd same

theorem mem_scanAll (proper : d.IsProper) {found : List String} (scanned : d.scanAll patterns = .ok found) :
    path ∈ found ↔ ∃ place file, d.file? place = some file ∧ d.IsLookedAt patterns place ∧
      path = ofComponents true place := by
  induction patterns generalizing found with
  | nil =>
    cases scanned
    simp [IsLookedAt]
  | cons text texts ih =>
    rw [scanAll_cons] at scanned
    cases isFirst : d.scanOne (.ofText text) with
    | error failure =>
      rw [isFirst] at scanned
      cases scanned
    | ok first =>
      cases isMore : d.scanAll texts with
      | error failure =>
        rw [isFirst, isMore] at scanned
        cases scanned
      | ok more =>
        rw [isFirst, isMore] at scanned
        obtain rfl := Except.ok.inj scanned
        rw [List.mem_append, mem_scanOne proper isFirst, ih isMore]
        constructor
        · rintro (⟨place, file, isFile, asked, rfl⟩ | ⟨place, file, isFile, ⟨other, member, asked⟩, rfl⟩)
          · exact ⟨place, file, isFile, ⟨text, List.mem_cons_self, asked⟩, rfl⟩
          · exact ⟨place, file, isFile, ⟨other, List.mem_cons_of_mem _ member, asked⟩, rfl⟩
        · rintro ⟨place, file, isFile, ⟨other, member, asked⟩, rfl⟩
          rcases List.mem_cons.mp member with rfl | member
          · exact .inl ⟨place, file, isFile, asked, rfl⟩
          · exact .inr ⟨place, file, isFile, ⟨other, member, asked⟩, rfl⟩

/-- **The files that a scan finds.** -/
theorem mem_scan (proper : d.IsProper) (scanned : d.scan patterns = .ok files) :
    path ∈ files ↔ ∃ place file, d.file? place = some file ∧ d.IsLookedAt patterns place ∧
      path = ofComponents true place := by
  rw [scan] at scanned
  split at scanned
  · cases scanned
  · next found isFound =>
    cases scanned
    rw [Text.mem_sortedUnique, mem_scanAll proper isFound]

theorem Grown.isDir {out : Place} (grown : Grown out d e) (isDir : d.isDir path = true) :
    e.isDir path = true := by
  obtain ⟨place, isPlace, isThere⟩ := isDir_iff.mp isDir
  exact isDir_iff.mpr ⟨place, grown.place_eq isPlace,
    isDirAt_iff.mpr (grown.dirs place (isDirAt_iff.mp isThere))⟩

/-- The directory of the pattern is there, and the system takes the absolute path of everything that a walk
from it comes to. -/
structure IsWalkable (d : Disk) (pattern : Pattern) : Prop where
  isDir : d.isDir (d.rootOf pattern) = true
  allowed : ∀ place entry, d.entry? place = some entry → d.Meets pattern place →
    refusedPath? (ofComponents true place) = none

/-- One pattern is scanned exactly if it can be walked. -/
theorem exists_scanOne_iff (proper : d.IsProper) {pattern : Pattern} :
    (∃ found, d.scanOne pattern = .ok found) ↔ d.IsWalkable pattern := by
  rw [scanOne, ← rootOf]
  by_cases isDir : d.isDir (d.rootOf pattern) = true
  · obtain ⟨top, isTop, -⟩ := isDir_iff.mp isDir
    obtain rfl := spot_of_place isTop
    have rooted : IsRooted (d.rootOf pattern) := d.isRooted_absolute pattern.base
    have walkable : d.IsWalkable pattern ↔
        ∃ found, d.walk (d.rootOf pattern) pattern.walking.entered false = .ok found := by
      rw [exists_walk_iff isTop]
      have walked {rest : Place} {entry : Entry} (found : d.entry? (d.spot (d.rootOf pattern) ++ rest) = some entry) :
          walkedPath (d.rootOf pattern) rest = ofComponents true (d.spot (d.rootOf pattern) ++ rest) :=
        d.walkedPath_eq rooted fun c inRest => (proper.isNamed found c (List.mem_append_right _ inRest)).1
      constructor
      · intro walkable rest entry member inside
        have found := (proper.entry?_eq_some_iff (proper.some_ _ member)).mpr member
        rw [walked found]
        exact walkable.allowed _ entry found ⟨rest, rfl, inside⟩
      · intro allowed
        refine ⟨isDir, ?_⟩
        rintro _ entry found ⟨rest, rfl, inside⟩
        by_cases isRoot : d.spot (d.rootOf pattern) ++ rest = []
        · rw [isRoot]
          decide
        · rw [← walked found]
          exact allowed rest entry ((proper.entry?_eq_some_iff isRoot).mp found) inside
    have strict : pattern.walking.lenient = false := rfl
    rw [walkable, if_pos isDir, collect, collectAll, matching, strict]
    cases d.walk (d.rootOf pattern) pattern.walking.entered false <;> simp [collectAll]
  · rw [if_neg isDir]
    refine iff_of_false ?_ fun walkable => isDir walkable.isDir
    rintro ⟨_, scanned⟩
    cases scanned

theorem exists_scanAll_iff (proper : d.IsProper) :
    (∃ found, d.scanAll patterns = .ok found) ↔ ∀ text ∈ patterns, d.IsWalkable (.ofText text) := by
  induction patterns with
  | nil => exact ⟨fun _ => List.forall_mem_nil _, fun _ => ⟨[], rfl⟩⟩
  | cons text texts ih =>
    rw [List.forall_mem_cons, ← ih, ← exists_scanOne_iff proper, scanAll_cons]
    cases d.scanOne (.ofText text) with
    | error failure => simp
    | ok found => cases d.scanAll texts <;> simp

/-- **A scan succeeds** exactly if all its patterns can be walked. -/
theorem exists_scan_iff (proper : d.IsProper) :
    (∃ files, d.scan patterns = .ok files) ↔ ∀ text ∈ patterns, d.IsWalkable (.ofText text) := by
  rw [← exists_scanAll_iff proper, scan]
  cases d.scanAll patterns <;> simp

/-- What was scanned can be scanned again, if the system takes the absolute path of everything new. -/
theorem Grown.exists_scan {out : Place} (grown : Grown out d e) (proper : d.IsProper) (proper' : e.IsProper)
    (fresh : ∀ place entry, d.entry? place = none → e.entry? place = some entry →
      refusedPath? (ofComponents true place) = none)
    (scanned : d.scan patterns = .ok files) : ∃ files, e.scan patterns = .ok files := by
  refine (exists_scan_iff proper').mpr fun text member => ?_
  have walkable := (exists_scan_iff proper).mp ⟨files, scanned⟩ text member
  refine ⟨?_, fun place entry found meets => ?_⟩
  · rw [rootOf_of_cwd grown.cwd]
    exact grown.isDir walkable.isDir
  · cases before : d.entry? place with
    | none => exact fresh place entry before found
    | some other => exact walkable.allowed place other before ((meets_of_cwd grown.cwd).mp meets)

/-! ### Texts -/

/-- The text of a file is found under the path of its place, whatever else is on the disk. -/
theorem textOf_eq (proper : d.IsProper) (proper' : e.IsProper) {other : File}
    (isFile : d.file? place = some file) (isFile' : e.file? place = some other)
    (same : file.content.asText = other.content.asText) :
    d.textOf (ofComponents true place) = e.textOf (ofComponents true place) := by
  have normal := proper.normal (file?_eq_some.mp isFile)
  cases refused : refusedPath? (ofComponents true place) with
  | some refusal =>
    have nowhere := proper.place_absolute (file?_eq_some.mp isFile)
    have nowhere' := proper'.place_absolute (file?_eq_some.mp isFile')
    rw [refused] at nowhere nowhere'
    simp only [textOf, Reader.readable, stat, lookUp, resolve, Path.clean_ofComponents normal, nowhere,
      nowhere']
    split_ifs <;> rfl
  | none =>
    have here := proper.place_absolute (file?_eq_some.mp isFile)
    have here' := proper'.place_absolute (file?_eq_some.mp isFile')
    rw [refused] at here here'
    have isAt : d.FileAt (ofComponents true place) place file := ⟨here, isFile⟩
    have isAt' : e.FileAt (ofComponents true place) place other := ⟨here', isFile'⟩
    simp only [textOf, Reader.readable, Path.clean_ofComponents normal, isAt.stat, isAt'.stat]
    split_ifs
    · rfl
    · rfl
    · simp only [isAt.readFile, isAt'.readFile, same]

/-- A file that holds no declaration, under a path that can be read. -/
theorem extractionOf_of_unmatched (proper : d.IsProper) (isFile : d.file? place = some file)
    (level : climbs (ofComponents true place) = false)
    (allowed : refusedPath? (ofComponents true place) = none)
    (unmatched : HeaderPattern.matchesDecorator file.content.asText = false) :
    d.extractionOf (ofComponents true place) = .empty := by
  have normal := proper.normal (file?_eq_some.mp isFile)
  have placed := proper.place_absolute (file?_eq_some.mp isFile)
  rw [allowed] at placed
  have isAt : d.FileAt (ofComponents true place) place file := ⟨placed, isFile⟩
  have some_ : (ofComponents true place).isEmpty = false := by
    simpa using Path.ne_empty_ofComponents normal
  have isText : d.textOf (ofComponents true place) = .ok file.content.asText := by
    simp only [textOf, Reader.readable, some_, Path.clean_ofComponents normal, level, isAt.stat,
      isAt.readFile, Bool.false_eq_true, if_false]
  rw [extractionOf, isText]
  simp only [unmatched, Bool.false_eq_true, if_false]

/-! ### Declarations -/

/-- What the file at a place comes to under its absolute path, if there is one. -/
def heldAt (d : Disk) (place : Place) : Attempt Decoration :=
  if (d.file? place).isSome then d.extractionOf (ofComponents true place) else .empty

/-- The files of a scan that hold something. -/
theorem mem_held (proper : d.IsProper) (scanned : d.scan patterns = .ok files) :
    path ∈ files.filter (fun path => !(d.extractionOf path).isEmpty) ↔ ∃ place,
      d.IsLookedAt patterns place ∧ (d.heldAt place).isEmpty = false ∧ path = ofComponents true place := by
  rw [List.mem_filter, mem_scan proper scanned, Bool.not_eq_true']
  constructor
  · rintro ⟨⟨place, file, isFile, asked, rfl⟩, some_⟩
    refine ⟨place, asked, ?_, rfl⟩
    rwa [heldAt, isFile, Option.isSome_some, if_pos rfl]
  · rintro ⟨place, asked, some_, rfl⟩
    rw [heldAt] at some_
    split_ifs at some_ with isFile
    · obtain ⟨file, isFile⟩ := Option.isSome_iff_exists.mp isFile
      exact ⟨⟨place, file, isFile, asked, rfl⟩, some_⟩
    · cases some_

theorem extractionOf_of_held (some_ : (d.heldAt place).isEmpty = false) :
    d.extractionOf (ofComponents true place) = d.heldAt place := by
  rw [heldAt] at some_ ⊢
  split_ifs at some_ ⊢
  · rfl
  · cases some_

/-- **The declarations that two scans find** are the same if all files that are looked at hold the same. -/
theorem declaredIn_rescan (proper : d.IsProper) (proper' : e.IsProper) (cwd : e.cwd = d.cwd)
    {others : List String} (scanned : d.scan patterns = .ok files) (scanned' : e.scan patterns = .ok others)
    (same : ∀ place, d.IsLookedAt patterns place → e.heldAt place = d.heldAt place) :
    (e.declaredIn others).filter (fun entry => !entry.2.isEmpty) =
      (d.declaredIn files).filter fun entry => !entry.2.isEmpty := by
  have samePaths : others.filter (fun path => !(e.extractionOf path).isEmpty) =
      files.filter fun path => !(d.extractionOf path).isEmpty := by
    refine List.Pairwise.eq_of_mem_iff ((pairwise_scan scanned').filter _)
      ((pairwise_scan scanned).filter _) fun path => ?_
    rw [mem_held proper' scanned', mem_held proper scanned]
    refine exists_congr fun place => ?_
    rw [isLookedAt_of_cwd cwd]
    refine and_congr_right fun asked => ?_
    rw [same place asked]
  have kept (f : Disk) : (fun entry : String × Attempt Decoration => !entry.2.isEmpty) ∘
      (fun path => (path, f.extractionOf path)) = fun path => !(f.extractionOf path).isEmpty := rfl
  rw [declaredIn, declaredIn, List.filter_map, List.filter_map, kept, kept, samePaths]
  refine List.map_congr_left fun path member => ?_
  obtain ⟨place, asked, some_, rfl⟩ := (mem_held proper scanned).mp member
  have some' : (e.heldAt place).isEmpty = false := by rw [same place asked, some_]
  rw [extractionOf_of_held some_, extractionOf_of_held some', same place asked]

end Disk

end Forwarder
