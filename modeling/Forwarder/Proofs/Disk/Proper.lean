/-
**Disks as a system keeps them.** Every entry has one place, under names that an entry can have and that
the system takes. Writing a file keeps to this. On such a disk a clean path leads to whatever is at the
place that it names, unless it is refused as it is written.

* `IsNamed` — a place with such names.
* `Disk.IsProper` — a tree of entries with such names, each at a place of its own.
* `IsProper.file?_eq_some_iff` — its entries are those that are found.
* `IsProper.put`, `IsProper.prepared`, **`IsProper.write`** — files and directories are made.
* **`IsProper.place_ofComponents`** — the place of a clean path.
-/

import Forwarder.Proofs.Disk.Rewriting

namespace Forwarder

open Forwarder.Path (IsEntryName)

/-- All names on the way to the place can be names of entries, and none is too long. -/
def IsNamed (place : Place) : Prop :=
  ∀ name ∈ place, IsEntryName name ∧ Disk.isTooLong name = false

instance (name : String) : Decidable (IsEntryName name) :=
  decidable_of_iff (name ≠ "" ∧ name ≠ "." ∧ name ≠ ".." ∧ '/' ∉ name.toList)
    ⟨fun ⟨some_, here, parent, free⟩ => ⟨some_, here, parent, free⟩,
      fun isName => ⟨isName.some_, isName.here, isName.parent, isName.free⟩⟩

instance (place : Place) : Decidable (IsNamed place) :=
  inferInstanceAs (Decidable (∀ name ∈ place, _))

theorem IsNamed.concat {above : Place} {name : String} (named : IsNamed above)
    (isName : IsEntryName name) (short : Disk.isTooLong name = false) : IsNamed (above ++ [name]) :=
  List.forall_mem_append.mpr ⟨named, List.forall_mem_singleton.mpr ⟨isName, short⟩⟩

/-- In a list without repeated keys every pair is found under its key. -/
theorem lookup_eq_some_of_mem {α β : Type} [BEq α] [LawfulBEq α] {items : List (α × β)}
    (unique : (items.map (·.1)).Nodup) {key : α} {value : β} (member : (key, value) ∈ items) :
    items.lookup key = some value := by
  induction items with
  | nil => cases member
  | cons item items ih =>
    obtain ⟨first, other⟩ := item
    rw [List.map_cons, List.nodup_cons] at unique
    rw [List.lookup_cons]
    rcases List.mem_cons.mp member with same | later
    · obtain ⟨rfl, rfl⟩ := Prod.mk.inj same
      rw [beq_self_eq_true]
    · have different : key ≠ first := fun same =>
        unique.1 (List.mem_map.mpr ⟨(key, value), later, same⟩)
      rw [beq_false_of_ne different, ih unique.2 later]

namespace Disk

open Forwarder.Path (advance goal Normal ofComponents)

variable {d : Disk} {here place : Place} {entry : Entry} {absolute : Bool} {front : List String}
  {name : String}

/-- The entries have places of their own, with names that the system takes, and stand in directories. -/
structure IsProper (d : Disk) : Prop extends IsTree d where
  some_ : ∀ entry ∈ d.entries, entry.1 ≠ []
  named : ∀ entry ∈ d.entries, IsNamed entry.1
  unique : (d.entries.map (·.1)).Nodup

instance (d : Disk) : Decidable d.IsProper :=
  decidable_of_iff (d.IsTree ∧ (∀ entry ∈ d.entries, entry.1 ≠ []) ∧
      (∀ entry ∈ d.entries, IsNamed entry.1) ∧ (d.entries.map (·.1)).Nodup)
    ⟨fun ⟨tree, some_, named, unique⟩ => ⟨tree, some_, named, unique⟩,
      fun proper => ⟨proper.toIsTree, proper.some_, proper.named, proper.unique⟩⟩

theorem isDirAt_put (some_ : place ≠ []) (kept : entry = .dir ∨ d.isDirAt place = false) {other : Place}
    (isDir : d.isDirAt other = true) : (d.put place entry).isDirAt other = true := by
  rw [isDirAt_iff, entry?_put d place other entry some_]
  split_ifs with same
  · rcases kept with rfl | noDir
    · rfl
    · rw [← same, isDir] at noDir
      cases noDir
  · exact isDirAt_iff.mp isDir

namespace IsProper

/-! ### Entries -/

theorem entry?_eq_some_iff (proper : d.IsProper) (isInner : place ≠ []) :
    d.entry? place = some entry ↔ (place, entry) ∈ d.entries := by
  unfold Disk.entry?
  rw [if_neg isInner]
  exact ⟨mem_of_lookup_eq_some, lookup_eq_some_of_mem proper.unique⟩

/-- **The files of the disk** are those that are found at their places. -/
theorem file?_eq_some_iff (proper : d.IsProper) {file : File} :
    d.file? place = some file ↔ (place, .file file) ∈ d.entries := by
  by_cases isRoot : place = []
  · rw [file?_eq_some, isRoot, entry?, if_pos rfl]
    refine ⟨fun found => ?_, fun member => absurd rfl (proper.some_ _ member)⟩
    cases found
  · rw [file?_eq_some, proper.entry?_eq_some_iff isRoot]

/-- Whatever is found has names that the system takes. -/
theorem isNamed (proper : d.IsProper) (found : d.entry? place = some entry) : IsNamed place := by
  by_cases isRoot : place = []
  · rw [isRoot]
    exact List.forall_mem_nil _
  · exact proper.named _ ((proper.entry?_eq_some_iff isRoot).mp found)

/-! ### Changes -/

/-- A file or a directory is put into a directory, and takes the place of no directory. -/
theorem put (proper : d.IsProper) (isInner : place ≠ []) (named : IsNamed place)
    (parent : d.isDirAt place.dropLast = true) (kept : entry = .dir ∨ d.isDirAt place = false) :
    (d.put place entry).IsProper where
  cwd := isDirAt_put isInner kept proper.cwd
  parents := by
    refine List.forall_mem_append.mpr ⟨fun other member => ?_, List.forall_mem_singleton.mpr ?_⟩
    · exact isDirAt_put isInner kept (proper.parents other (List.mem_filter.mp member).1)
    · exact isDirAt_put isInner kept parent
  some_ := List.forall_mem_append.mpr
    ⟨fun other member => proper.some_ other (List.mem_filter.mp member).1,
      List.forall_mem_singleton.mpr isInner⟩
  named := List.forall_mem_append.mpr
    ⟨fun other member => proper.named other (List.mem_filter.mp member).1,
      List.forall_mem_singleton.mpr named⟩
  unique := by
    rw [Disk.put, List.map_append, List.map_singleton, List.nodup_append]
    refine ⟨proper.unique.sublist (List.filter_sublist.map _), List.pairwise_singleton _ _, ?_⟩
    intro key isKey other isOther same
    obtain ⟨item, member, rfl⟩ := List.mem_map.mp isKey
    have away := (List.mem_filter.mp member).2
    rw [bne_iff_ne] at away
    exact away (same.trans (List.mem_singleton.mp isOther))

theorem atClock (proper : d.IsProper) (now : Nat) : (d.atClock now).IsProper :=
  ⟨⟨proper.cwd, proper.parents⟩, proper.some_, proper.named, proper.unique⟩

/-- A directory further along a path is made. -/
theorem withFolder (proper : d.IsProper) (isDir : d.isDirAt here = true) {component : String}
    (free : '/' ∉ component.toList) (short : isTooLong component = false) :
    (d.withFolder (advance here component)).IsProper := by
  cases found : d.entry? (advance here component) with
  | some entry =>
    rw [withFolder_eq_self (by rw [found]; rfl)]
    exact proper
  | none =>
    have isThere : advance here component ≠ here := fun same => by
      rw [same, isDirAt_iff.mp isDir] at found
      cases found
    have isName : IsEntryName component ∧ advance here component = here ++ [component] := by
      by_cases blank : Path.IsBlank component
      · exact absurd (Path.advance_blank here blank) isThere
      by_cases up : component = ".."
      · have isAbove : advance here component = here.dropLast := by
          rw [advance, if_neg (by exact blank), if_pos up]
        have above := proper.toIsTree.isDirAt (isDirAt_iff.mp isDir) (List.dropLast_prefix here)
          (isAbove ▸ isThere)
        rw [isAbove, isDirAt_iff.mp above] at found
        cases found
      · obtain ⟨notEmpty, notHere⟩ := not_or.mp blank
        refine ⟨⟨notEmpty, notHere, up, free⟩, ?_⟩
        rw [advance, if_neg (by exact blank), if_neg up]
    obtain ⟨isName, isBelow⟩ := isName
    rw [Disk.withFolder, found, Option.isNone_none, if_pos rfl, isBelow]
    refine proper.put (List.append_ne_nil_of_right_ne_nil _ (List.cons_ne_nil _ _))
      ((proper.isNamed (isDirAt_iff.mp isDir)).concat isName short) ?_ (.inl rfl)
    rwa [List.dropLast_concat]

/-- The directories on the way to a file are made. -/
theorem withFolders_passed {components : List String} (proper : d.IsProper)
    (isDir : d.isDirAt here = true) (free : ∀ c ∈ components, '/' ∉ c.toList) :
    (d.withFolders (d.passed absolute front here components)).IsProper := by
  induction components generalizing d front here with
  | nil => exact proper
  | cons c rest ih =>
    obtain ⟨first, others⟩ := List.forall_mem_cons.mp free
    rw [passed]
    cases found : d.obstacle? absolute front here c with
    | some obstacle => exact proper
    | none =>
      obtain ⟨allowed, noFile⟩ := obstacle?_eq_none.mp found
      have further := proper.withFolder isDir first (blocked?_eq_none.mp allowed).2
      have sameFiles : d.passed absolute (front ++ [c]) (advance here c) rest =
          (d.withFolder (advance here c)).passed absolute (front ++ [c]) (advance here c) rest :=
        passed_congr _ _ _ fun place _ => by rw [(dug_withFolder d (advance here c)).file?]
      dsimp only
      rw [withFolders, List.foldl_cons, sameFiles]
      exact ih further (isDirAt_withFolder noFile) others

theorem prepared (proper : d.IsProper) (normal : Normal absolute front) (name : String) :
    (d.prepared absolute front name).IsProper := by
  have isDir : d.isDirAt (d.ground absolute) = true :=
    proper.toIsTree.isGrounded _ (ground_above d absolute)
  rw [Disk.prepared, foldersOf]
  split
  · exact proper
  · exact proper.withFolders_passed isDir normal.free

/-- **Writing a file** keeps the disk proper. -/
theorem write (proper : d.IsProper) (normal : Normal absolute front) (isName : IsEntryName name)
    (text : String) : (d.write (ofComponents absolute (front ++ [name])) text).2.IsProper := by
  have grounded := proper.toIsTree.isGrounded
  have made := proper.prepared normal name
  rw [write_closed normal isName grounded]
  cases writable : d.writeFailure? absolute front name with
  | some failure => exact made
  | none =>
    obtain ⟨⟨climbs_, free, allowed, noDir⟩, -⟩ := writable_iff.mp writable
    have isDir : (d.prepared absolute front name).isDirAt (goal (d.ground absolute) front) = true := by
      rcases List.mem_cons.mp (goal_mem_stations (d.ground absolute) front) with isGround | isStation
      · rw [isGround]
        exact (dug_prepared d absolute front name).isDirAt (grounded _ (ground_above d absolute))
      · refine isDirAt_prepared _ ?_
        rwa [foldersOf, climbs_, if_neg Bool.false_ne_true, passed_eq_stations free]
    have noDir' : (d.prepared absolute front name).isDirAt (goal (d.ground absolute) front ++ [name]) =
        false := noDir_prepared normal grounded noDir
    exact (made.put (List.append_ne_nil_of_right_ne_nil _ (List.cons_ne_nil _ _))
      ((made.isNamed (isDirAt_iff.mp isDir)).concat isName (blocked?_eq_none.mp allowed).2)
      (by rwa [List.dropLast_concat]) (.inr noDir')).atClock _

/-! ### Paths -/

/-- Names that lead down to something can be followed. -/
theorem follow_names {components : List String} (proper : d.IsProper)
    (names : ∀ c ∈ components, IsEntryName c) (isDir : components ≠ [] → d.isDirAt here = true)
    (found : d.entry? (here ++ components) = some entry) :
    d.follow here components = .ok (here ++ components) := by
  induction components generalizing here with
  | nil => rw [follow, List.append_nil]
  | cons c rest ih =>
    obtain ⟨isName, others⟩ := List.forall_mem_cons.mp names
    have split : here ++ c :: rest = here ++ [c] ++ rest := List.append_cons ..
    have short : isTooLong c = false :=
      (proper.isNamed found c (List.mem_append_right _ List.mem_cons_self)).2
    rw [split] at found ⊢
    have isDir' : rest ≠ [] → d.isDirAt (here ++ [c]) = true := fun more => by
      refine proper.toIsTree.isDirAt found (List.prefix_append _ _) fun same => more ?_
      exact List.self_eq_append_right.mp same
    have some_ : ¬(d.entry? (here ++ [c])).isNone = true := by
      by_cases more : rest = []
      · rw [more, List.append_nil] at found
        rw [found]
        exact Bool.false_ne_true
      · rw [isDirAt_iff.mp (isDir' more)]
        exact Bool.false_ne_true
    rw [follow_cons, if_pos (isDir (List.cons_ne_nil _ _)),
      if_neg (not_or.mpr ⟨isName.some_, isName.here⟩), if_neg isName.parent,
      if_neg (by rw [short]; exact Bool.false_ne_true), if_neg some_]
    exact ih others isDir' found

/-- Components that lead up before they lead down to something can be followed. -/
theorem follow_normal {components : List String} (proper : d.IsProper)
    (normal : Normal absolute components) (low : here <+: d.cwd)
    (found : d.entry? (goal here components) = some entry) :
    d.follow here components = .ok (goal here components) := by
  induction components generalizing here with
  | nil => rfl
  | cons c rest ih =>
    have isDir := proper.toIsTree.above_cwd low
    rcases normal.each c List.mem_cons_self with isName | ⟨rfl, -⟩
    · have names := normal.names isName
      rw [Path.goal_names names] at found ⊢
      exact proper.follow_names names (fun _ => isDir) found
    · have further : Normal absolute rest := (Normal.of_append (show Normal absolute ([".."] ++ rest) from normal)).2
      rw [follow_cons, if_pos isDir, if_neg (by decide), if_pos rfl]
      exact ih further ((List.dropLast_prefix here).trans low) found

/-- **A clean path that names something** leads there, unless it is refused as it is written. -/
theorem place_ofComponents {components : List String} (proper : d.IsProper)
    (normal : Normal absolute components)
    (found : d.entry? (goal (d.ground absolute) components) = some entry) :
    d.place (ofComponents absolute components) =
      match refusedPath? (ofComponents absolute components) with
      | some refusal => .error refusal
      | none => .ok (goal (d.ground absolute) components) := by
  have followed := proper.follow_normal normal (ground_above d absolute) found
  rw [Disk.place_ofComponents normal proper.cwd]
  cases refusedPath? (ofComponents absolute components) with
  | some refusal => rfl
  | none => exact followed

end IsProper

end Disk

end Forwarder
