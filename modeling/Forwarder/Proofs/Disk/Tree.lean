/-
**Disks are trees.** A path that leads somewhere leads where its components say, and whatever is on a
disk can be reached through the directories above it.

* `Disk.spot` — the place a path names; `Disk.spot_of_place` — the place it leads to, if any.
* `Disk.IsTree` — every entry is in a directory; `IsTree.isDirAt` — so are all those above it.
* `Disk.follow_append` — following components in two stretches.
* `Disk.place_ofComponents` — the place of a shortest spelling.
* `Disk.atClock` — what is read does not depend on the time.
* `Disk.entry?_put` — an elementary change is seen at its own place only.
-/

import Mathlib.Data.List.Induction
import Forwarder.Disk.Change
import Forwarder.Proofs.Path

namespace Forwarder

theorem mem_of_lookup_eq_some {α β : Type} [BEq α] [LawfulBEq α] {items : List (α × β)} {key : α}
    {value : β} (found : items.lookup key = some value) : (key, value) ∈ items := by
  induction items with
  | nil => cases found
  | cons item items ih =>
    obtain ⟨first, other⟩ := item
    rw [List.lookup_cons] at found
    split at found
    · next same =>
      cases found
      rw [eq_of_beq same]
      exact List.mem_cons_self
    · exact List.mem_cons_of_mem _ (ih found)

/-- Looking a key up among the pairs whose keys pass a test. -/
theorem lookup_filter {α β : Type} [BEq α] [LawfulBEq α] (items : List (α × β)) (test : α → Bool) (key : α) :
    (items.filter fun item => test item.1).lookup key = if test key then items.lookup key else none := by
  induction items with
  | nil => rw [List.filter_nil, List.lookup_nil, ite_self]
  | cons item items ih =>
    obtain ⟨first, value⟩ := item
    by_cases same : key = first
    · subst same
      by_cases kept : test key = true
      · rw [List.filter_cons_of_pos (by exact kept), if_pos kept, List.lookup_cons_self, List.lookup_cons_self]
      · rw [List.filter_cons_of_neg (by exact kept), ih, if_neg kept, if_neg kept]
    · have other : (key == first) = false := beq_false_of_ne same
      by_cases kept : test first = true
      · rw [List.filter_cons_of_pos (by exact kept), List.lookup_cons, other, List.lookup_cons, other]
        exact ih
      · rw [List.filter_cons_of_neg (by exact kept), ih, List.lookup_cons, other]

/-- Looking a key up in a list from which one was dropped. -/
theorem lookup_dropped {α β : Type} [BEq α] [LawfulBEq α] [DecidableEq α] (items : List (α × β)) (dropped key : α) :
    (items.filter (·.1 != dropped)).lookup key = if key = dropped then none else items.lookup key := by
  rw [lookup_filter items (· != dropped)]
  by_cases same : key = dropped <;> simp [same]

/-- Looking a key up in a list in which it was replaced. -/
theorem lookup_replaced {α β : Type} [BEq α] [LawfulBEq α] [DecidableEq α] (items : List (α × β)) (changed key : α)
    (value : β) : (items.filter (·.1 != changed) ++ [(changed, value)]).lookup key =
      if key = changed then some value else items.lookup key := by
  rw [List.lookup_append, lookup_dropped, List.lookup_cons]
  by_cases same : key = changed
  · rw [if_pos same, if_pos same, beq_iff_eq.mpr same, Option.none_or]
  · rw [if_neg same, if_neg same, beq_false_of_ne same, List.lookup_nil, Option.or_none]

namespace Disk

open Forwarder.Path (advance goal IsBlank IsEntryName Normal ofComponents)

variable {d : Disk} {here place : Place} {path : String} {components : List String}

/-! ### Following components -/

/-- Where a path starts. -/
def start (d : Disk) (path : String) : Place :=
  if Path.isAbsolute path then [] else d.cwd

/-- The place a path names, whether or not anything is there. -/
def spot (d : Disk) (path : String) : Place :=
  goal (d.start path) (Path.written path)

/-- One component is followed from a directory only. -/
theorem follow_cons (d : Disk) (here : Place) (component : String) (rest : List String) :
    d.follow here (component :: rest) =
      if d.isDirAt here then
        if component = "" ∨ component = "." then d.follow here rest
        else if component = ".." then d.follow here.dropLast rest
        else if isTooLong component then .error .nameTooLong
        else if (d.entry? (here ++ [component])).isNone then .error .missing
        else d.follow (here ++ [component]) rest
      else .error .notDirectory := by
  rw [follow]
  split_ifs <;> first | rfl | skip
  all_goals cases found : d.entry? (here ++ [component]) <;> simp_all

/-- **A path that can be followed** leads where its components say. -/
theorem eq_goal_of_follow (followed : d.follow here components = .ok place) :
    place = goal here components := by
  induction components generalizing here with
  | nil =>
    cases followed
    rfl
  | cons c rest ih =>
    rw [goal, List.foldl_cons, advance]
    rw [follow_cons] at followed
    split_ifs at followed ⊢
    all_goals exact ih followed

theorem spot_of_place (found : d.place path = .ok place) : place = d.spot path := by
  rw [Disk.place] at found
  split at found
  · cases found
  · exact eq_goal_of_follow found

/-- What a path leads to. -/
theorem resolve_eq_ok {entry : Entry} :
    d.resolve path = .ok entry ↔ ∃ place, d.place path = .ok place ∧ d.entry? place = some entry := by
  rw [resolve]
  cases isPlace : d.place path with
  | error refusal => simp
  | ok place => cases isEntry : d.entry? place <;> simp [isEntry]

/-- Cleaning a path does not change the place it names. -/
theorem spot_clean (d : Disk) (path : String) : d.spot (Path.clean path) = d.spot path := by
  have fromRoot : Path.isAbsolute path = true → d.start path = [] := fun absolute => if_pos absolute
  obtain ⟨blanks, blank, isWritten⟩ := Path.written_ofComponents (Path.normal_components path)
  have sameStart : d.start (Path.clean path) = d.start path := by
    rw [start, start, Path.isAbsolute_clean]
  rw [spot, spot, sameStart, Path.clean, isWritten, Path.goal_append, Path.goal_blanks blank,
    Path.goal_components fromRoot]

/-- The place that a relative path names below another one. -/
theorem spot_join (d : Disk) (root : String) {below : String}
    (relative : Path.isAbsolute below = false) (some_ : below ≠ "") :
    d.spot (Path.join [root, below]) = goal (d.spot root) (Path.written below) := by
  rcases eq_or_ne root "" with rfl | isRoot
  · have here : d.spot "" = d.cwd := rfl
    rw [Path.join_here some_, spot_clean, here, spot, start, if_neg (by rw [relative]; decide)]
  · have sameStart : d.start (root ++ "/" ++ below) = d.start root := by
      rw [start, start, String.append_assoc, Path.isAbsolute_append isRoot]
    rw [Path.join_below isRoot some_, spot_clean, spot, spot, sameStart, Path.written_append,
      Path.goal_append]

theorem follow_append (d : Disk) (here : Place) (front back : List String) :
    d.follow here (front ++ back) =
      match d.follow here front with
      | .error refusal => .error refusal
      | .ok middle => d.follow middle back := by
  induction front generalizing here with
  | nil => rfl
  | cons c front ih =>
    rw [List.cons_append, follow_cons, follow_cons]
    split_ifs <;> first | exact ih _ | rfl

theorem follow_blanks {blanks : List String} (blank : ∀ b ∈ blanks, IsBlank b)
    (isDir : d.isDirAt here = true) : d.follow here blanks = .ok here := by
  induction blanks with
  | nil => rfl
  | cons b blanks ih =>
    obtain ⟨first, others⟩ := List.forall_mem_cons.mp blank
    rw [follow_cons, if_pos isDir, if_pos (by exact first), ih others]

/-- The place of a shortest spelling is found by its components. -/
theorem place_ofComponents {absolute : Bool} (normal : Normal absolute components)
    (cwd : d.isDirAt d.cwd = true) :
    d.place (ofComponents absolute components) =
      match refusedPath? (ofComponents absolute components) with
      | some refusal => .error refusal
      | none => d.follow (if absolute then [] else d.cwd) components := by
  obtain ⟨blanks, blank, isWritten⟩ := Path.written_ofComponents normal
  have isDir : d.isDirAt (if absolute then [] else d.cwd) = true := by
    cases absolute
    · exact cwd
    · rfl
  have followed : d.follow (if absolute then [] else d.cwd) (blanks ++ components) =
      d.follow (if absolute then [] else d.cwd) components := by
    rw [follow_append, follow_blanks blank isDir]
  rw [Disk.place, Path.isAbsolute_ofComponents normal, isWritten]
  cases refusedPath? (ofComponents absolute components) with
  | some refusal => rfl
  | none => exact followed

/-! ### Times -/

section Times

/-- The same files and directories at another time. -/
def atClock (d : Disk) (now : Nat) : Disk :=
  { d with clock := now }

variable (d : Disk) (now : Nat)

theorem follow_atClock (here : Place) (components : List String) :
    (d.atClock now).follow here components = d.follow here components := by
  induction components generalizing here with
  | nil => rfl
  | cons c rest ih =>
    rw [follow_cons, follow_cons, ih, ih, ih]
    rfl

theorem place_atClock (path : String) : (d.atClock now).place path = d.place path := by
  rw [Disk.place, Disk.place, follow_atClock]
  rfl

theorem readFile_atClock (path : String) : (d.atClock now).readFile path = d.readFile path := by
  simp only [readFile, openFile, lookUp, resolve, place_atClock]
  rfl

theorem stat_atClock (path : String) : (d.atClock now).stat path = d.stat path := by
  simp only [stat, lookUp, resolve, place_atClock]
  rfl

theorem fingerprint_atClock (path : String) :
    (d.atClock now).fingerprint path = d.fingerprint path := by
  simp only [fingerprint, place_atClock]
  rfl

end Times

/-! ### Trees -/

/-- The working directory is there, and every entry is in a directory. -/
structure IsTree (d : Disk) : Prop where
  cwd : d.isDirAt d.cwd = true
  parents : ∀ entry ∈ d.entries, d.isDirAt entry.1.dropLast = true

instance (d : Disk) : Decidable d.IsTree :=
  decidable_of_iff (d.isDirAt d.cwd = true ∧ ∀ entry ∈ d.entries, d.isDirAt entry.1.dropLast = true)
    ⟨fun ⟨cwd, parents⟩ => ⟨cwd, parents⟩, fun tree => ⟨tree.cwd, tree.parents⟩⟩

theorem isDirAt_iff : d.isDirAt place = true ↔ d.entry? place = some .dir := by
  rw [isDirAt, beq_iff_eq]

theorem file?_eq_some {file : File} : d.file? place = some file ↔ d.entry? place = some (.file file) := by
  unfold file?
  split
  · next other found => rw [found, Option.some_inj, Option.some_inj, Entry.file.injEq]
  · next none_ =>
    constructor
    · intro absurd
      cases absurd
    · exact fun found => absurd found (none_ file)

/-- What is on a disk is in directories, all the way up. -/
theorem IsTree.isDirAt (tree : d.IsTree) {above : Place} {entry : Entry}
    (found : d.entry? place = some entry) (isAbove : above <+: place) (other : above ≠ place) :
    d.isDirAt above = true := by
  induction place using List.reverseRecOn generalizing entry with
  | nil => exact absurd (List.prefix_nil.mp isAbove) other
  | append_singleton place name ih =>
    unfold Disk.entry? at found
    rw [if_neg (List.append_ne_nil_of_right_ne_nil _ (List.cons_ne_nil _ _))] at found
    have isDir := tree.parents _ (mem_of_lookup_eq_some found)
    rw [List.dropLast_concat] at isDir
    rcases List.prefix_concat_iff.mp isAbove with same | further
    · exact absurd same other
    · by_cases same : above = place
      · exact same ▸ isDir
      · exact ih (isDirAt_iff.mp isDir) further same

/-- The directories above the working directory. -/
theorem IsTree.above_cwd (tree : d.IsTree) {above : Place} (isAbove : above <+: d.cwd) :
    d.isDirAt above = true := by
  by_cases same : above = d.cwd
  · exact same ▸ tree.cwd
  · exact tree.isDirAt (isDirAt_iff.mp tree.cwd) isAbove same

/-! ### Elementary changes -/

/-- **A change is seen at its own place only.** The root directory stays. -/
theorem entry?_put (d : Disk) (changed place : Place) (entry : Entry) (some_ : changed ≠ []) :
    Disk.entry? (d.put changed entry) place =
      if place = changed then some entry else d.entry? place := by
  unfold entry? put
  by_cases root : place = []
  · rw [if_pos root, if_pos root, if_neg fun same => some_ (same.symm.trans root)]
  · rw [if_neg root, if_neg root]
    exact lookup_replaced d.entries changed place entry

end Disk

end Forwarder
