/-
**Level paths.** A path is worked on if two points in a row stand at the start of its shortest spelling,
or nowhere in it. This shows in its components, and the shortest spelling is never refused where the path
itself is not. A relative path is joined to a root if its shortest spelling leads down. The result goes on from
the root by what is left of the relative path, so it lies strictly below the root, however the two are spelled.

* `NeverClimbs` — a name without two points in a row.
* `Path.IsLevel` — the components of a path that is worked on.
* `climbs_clean_iff`, **`checkedPath_eq`** — exactly these paths are.
* `Path.sublist_clean` — the shortest spelling has no characters of its own.
* `Disk.IsProper.resolve_clean` — it leads to the same entry.
* **`Reader.readable_eq`** — what is at a path can be read exactly if the path is level.
* `Path.steps` — the components of a spelling that lead somewhere; `steps_clean` — those of a shortest one.
* `Path.descends_iff` — the shortest spelling of a relative path leads down.
* `Path.isEntryName_components` — then it is made of names alone.
* **`within_exact`** — the paths that are joined to a root, and what they are joined to.
-/

import Mathlib.Data.String.Basic
import Forwarder.Files.CheckedPath
import Forwarder.Files.Reader
import Forwarder.Proofs.Disk.Proper
import Forwarder.Proofs.Path

namespace Forwarder

open Forwarder.Path (ofComponents Normal)

/-! ### Two points in a row -/

/-- There are no two points in a row. -/
def NeverClimbs (name : String) : Prop :=
  Text.contains name ".." = false

instance (name : String) : Decidable (NeverClimbs name) :=
  inferInstanceAs (Decidable (_ = false))

theorem holdsPart_points_append (front back : List Char) :
    Text.holdsPart ['.', '.'] (front ++ '/' :: back) =
      (Text.holdsPart ['.', '.'] front || Text.holdsPart ['.', '.'] back) := by
  induction front with
  | nil => simp [Text.holdsPart]
  | cons c front ih =>
    rw [List.cons_append, Text.holdsPart, Text.holdsPart, ih, ← Bool.or_assoc]
    cases front <;> simp [List.isPrefixOf]

/-- Two points in a row stand within one component. -/
theorem contains_join (components : List String) :
    Text.contains (Text.join "/" components) ".." = components.any (Text.contains · "..") := by
  rw [Text.contains, Path.slash_eq, Text.toList_join]
  show Text.holdsPart ['.', '.'] _ = _
  induction components with
  | nil => rfl
  | cons name others ih =>
    cases others with
    | nil => exact (Bool.or_false _).symm
    | cons next others =>
      rw [List.map_cons, List.map_cons, Text.joinWith, holdsPart_points_append, ← List.map_cons, ih,
        List.any_cons]
      · rfl
      · exact List.cons_ne_nil _ _

theorem contains_ofComponents (absolute : Bool) (components : List String) :
    Text.contains (ofComponents absolute components) ".." = components.any (Text.contains · "..") := by
  rw [ofComponents]
  split_ifs with isAbsolute isEmpty
  · rw [← contains_join, Text.contains, Text.contains, String.toList_append, Path.slash_eq]
    exact (holdsPart_points_append [] _).trans (Bool.false_or _)
  · rw [List.isEmpty_iff.mp isEmpty]
    decide
  · exact contains_join components

/-- A path of names without two points in a row does not climb. -/
theorem climbs_ofComponents {absolute : Bool} {components : List String}
    (level : ∀ name ∈ components, NeverClimbs name) : climbs (ofComponents absolute components) = false := by
  have nowhere : components.any (Text.contains · "..") = false :=
    List.any_eq_false.mpr fun name member => by rw [level name member]; exact Bool.false_ne_true
  rw [climbs, contains_ofComponents, nowhere, Bool.false_and]

/-- The shortest spelling starts with two points, or has no two points in a row. -/
def Path.IsLevel (path : String) : Prop :=
  Text.startsBy (clean path) ".." = true ∨ ∀ name ∈ components path, NeverClimbs name

instance (path : String) : Decidable (Path.IsLevel path) :=
  inferInstanceAs (Decidable (_ ∨ _))

theorem climbs_clean_iff (path : String) : climbs (Path.clean path) = true ↔ ¬Path.IsLevel path := by
  rw [climbs, Path.clean, contains_ofComponents, ← Path.clean, Path.IsLevel, not_or, Bool.and_eq_true,
    and_comm, List.any_eq_true, Bool.not_eq_true', Bool.eq_false_iff]
  refine and_congr_right fun _ => ?_
  simp only [NeverClimbs, not_forall, Bool.not_eq_false, exists_prop]

/-- **The paths that are worked on** are the level ones. -/
theorem checkedPath_eq {path : String} (some_ : path ≠ "") :
    checkedPath path = if Path.IsLevel path then .ok (Path.clean path) else .error (climbing path) := by
  rw [checkedPath, if_neg (by simpa using some_)]
  by_cases level : Path.IsLevel path
  · rw [if_pos level, if_neg ((climbs_clean_iff path).not.mpr (not_not.mpr level))]
  · rw [if_neg level, if_pos ((climbs_clean_iff path).mpr level)]

/-! ### Shortest spellings are not refused -/

namespace Path

theorem push_sublist (absolute : Bool) (reversed : List String) (component : String) :
    (push absolute reversed component).Sublist (component :: reversed) := by
  by_cases blank : IsBlank component
  · rw [push_blank _ blank]
    exact List.sublist_cons_self _ _
  by_cases up : component = ".."
  · subst up
    cases reversed with
    | nil =>
      cases absolute
      · exact List.Sublist.refl _
      · exact List.nil_sublist _
    | cons last before =>
      by_cases double : last = ".."
      · simp [push, double]
      · have pushed : push absolute (last :: before) ".." = before := by simp [push, double]
        rw [pushed]
        exact (List.sublist_cons_self _ _).trans (List.sublist_cons_self _ _)
  · unfold push
    rw [if_neg (by exact blank), if_neg up]

theorem foldl_push_sublist (absolute : Bool) (components reversed : List String) :
    (components.foldl (push absolute) reversed).reverse.Sublist (reversed.reverse ++ components) := by
  induction components generalizing reversed with
  | nil => exact (List.append_nil _).symm ▸ List.Sublist.refl _
  | cons c rest ih =>
    rw [List.foldl_cons, List.append_cons, ← List.reverse_cons]
    exact (ih _).trans ((push_sublist absolute reversed c).reverse.append (List.Sublist.refl rest))

/-- The components of a path are some of those that are written. -/
theorem components_sublist (path : String) : (components path).Sublist (written path) :=
  foldl_push_sublist (isAbsolute path) (written path) []

theorem joinWith_sublist (mark : Char) {some_ all : List (List Char)} (among : some_.Sublist all) :
    (Text.joinWith mark some_).Sublist (Text.joinWith mark all) := by
  have more (part next : List Char) (parts : List (List Char)) :
      Text.joinWith mark (part :: next :: parts) = part ++ mark :: Text.joinWith mark (next :: parts) := rfl
  induction among with
  | slnil => exact List.Sublist.refl _
  | @cons some_ all part among ih =>
    cases all with
    | nil =>
      rw [List.sublist_nil.mp among]
      exact List.nil_sublist _
    | cons next all =>
      rw [more]
      exact ih.trans ((List.sublist_cons_self _ _).trans (List.sublist_append_right _ _))
  | @cons_cons some_ all part among ih =>
    cases all with
    | nil => rw [List.sublist_nil.mp among]
    | cons next all =>
      cases some_ with
      | nil =>
        rw [more]
        exact List.sublist_append_left _ _
      | cons other some_ =>
        rw [more, more]
        exact (List.Sublist.refl part).append (ih.cons_cons mark)

/-- The shortest spelling of a path has no characters of its own, unless it is a single point. -/
theorem sublist_clean (path : String) :
    clean path = "." ∨ (clean path).toList.Sublist path.toList := by
  have joined {some_ all : List String} (among : some_.Sublist all) :
      (Text.join "/" some_).toList.Sublist (Text.join "/" all).toList := by
    rw [slash_eq, Text.toList_join, Text.toList_join]
    exact joinWith_sublist '/' (among.map _)
  rw [clean, ofComponents]
  split_ifs with isAbsolute_ isEmpty
  · -- what is written behind the first slash, where no component stands
    obtain ⟨rest, chars⟩ := isAbsolute_iff.mp isAbsolute_
    right
    have behind : written path = "" :: Text.split '/' (String.ofList rest) := by
      rw [written, Text.split, chars, Text.pieces, if_pos rfl, List.map_cons, Text.split,
        String.toList_ofList]
    have among := components_sublist path
    rw [behind] at among
    have notEmpty : "" ∉ components path := fun member =>
      (normal_components path).some_ "" member (.inl rfl)
    have inRest : (components path).Sublist (Text.split '/' (String.ofList rest)) := by
      rcases List.sublist_cons_iff.mp among with inRest | ⟨others, isFirst, -⟩
      · exact inRest
      · exact absurd (isFirst ▸ List.mem_cons_self) notEmpty
    have below := joined inRest
    rw [← written, join_written, String.toList_ofList] at below
    rw [String.toList_append, chars]
    exact below.cons_cons '/'
  · exact .inl rfl
  · right
    have among := joined (components_sublist path)
    rwa [join_written] at among

end Path

namespace Disk

/-- The shortest spelling of a path is not refused if the path is not. -/
theorem refusedPath?_clean {path : String} (allowed : refusedPath? path = none) :
    refusedPath? (Path.clean path) = none := by
  rcases Path.sublist_clean path with here | among
  · rw [here]
    decide
  · rw [refusedPath?] at allowed ⊢
    split_ifs at allowed with isEmpty hasNull isLong
    have noNull : ¬(Path.clean path).toList.contains '\x00' = true := fun hasNull' =>
      hasNull (List.contains_iff_mem.mpr (among.subset (List.contains_iff_mem.mp hasNull')))
    have short : ¬(Path.clean path).utf8ByteSize > 4095 := by
      have fewer := String.utf8Len_le_of_sublist among
      rw [String.utf8Len_toList, String.utf8Len_toList] at fewer
      omega
    rw [if_neg (by simpa using Path.clean_ne_empty path), if_neg noNull, if_neg short]

variable {d : Disk} {path : String}

/-- **The shortest spelling** of a path leads to the same entry. -/
theorem IsProper.resolve_clean (proper : d.IsProper) {entry : Entry} (found : d.resolve path = .ok entry) :
    d.resolve (Path.clean path) = .ok entry := by
  obtain ⟨place, isPlace, isEntry⟩ := resolve_eq_ok.mp found
  have allowed : refusedPath? path = none := by
    rw [Disk.place] at isPlace
    cases refused : refusedPath? path with
    | some refusal => rw [refused] at isPlace; cases isPlace
    | none => rfl
  have isHere : Path.goal (d.ground (Path.isAbsolute path)) (Path.components path) = place := by
    rw [spot_of_place isPlace, spot_eq_goal]
  have placed := proper.place_ofComponents (Path.normal_components path) (isHere.symm ▸ isEntry)
  rw [← Path.clean, refusedPath?_clean allowed, isHere] at placed
  exact resolve_eq_ok.mpr ⟨place, placed, isEntry⟩

end Disk

/-! ### Reading -/

/-- **What is at a path** can be read exactly if the path is level. -/
theorem Reader.readable_eq {d : Disk} {path : String} (proper : d.IsProper) {entry : Entry}
    (found : d.resolve path = .ok entry) :
    readable d path = if Path.IsLevel path then .ok (Path.clean path) else .error (climbing path) := by
  have some_ : path ≠ "" := by
    rintro rfl
    cases found
  have there : d.stat (Path.clean path) = .ok entry := by
    rw [Disk.stat, Disk.lookUp, proper.resolve_clean found]
  rw [readable, if_neg (by simpa using some_)]
  by_cases level : Path.IsLevel path
  · simp only [if_pos level, if_neg ((climbs_clean_iff path).not.mpr (not_not.mpr level)), there]
  · simp only [if_neg level, if_pos ((climbs_clean_iff path).mpr level)]

namespace Path

variable {absolute : Bool} {names : List String} {path : String}

/-! ### Steps -/

/-- The components of a spelling that lead somewhere. The empty one in front of an absolute path and the
point that stands for the current directory are none. -/
def steps (path : String) : List String :=
  (written path).filter fun c => c ≠ "" ∧ c ≠ "."

theorem steps_ofComponents (normal : Normal absolute names) : steps (ofComponents absolute names) = names := by
  obtain ⟨blanks, blank, isWritten⟩ := written_ofComponents normal
  have dropped : blanks.filter (fun c => c ≠ "" ∧ c ≠ ".") = [] :=
    List.filter_eq_nil_iff.mpr fun c member => by
      simpa [IsBlank, or_iff_not_imp_left] using blank c member
  have kept : names.filter (fun c => c ≠ "" ∧ c ≠ ".") = names :=
    List.filter_eq_self.mpr fun c member => by simpa [IsBlank] using normal.some_ c member
  rw [steps, isWritten, List.filter_append, dropped, kept, List.nil_append]

/-- A shortest spelling has the components of the path. -/
theorem steps_clean (path : String) : steps (clean path) = components path :=
  steps_ofComponents (normal_components path)

/-! ### Relative paths -/

/-- The spelling of a relative path that leads somewhere is made of its components. -/
theorem written_clean (relative : isAbsolute path = false) (some_ : components path ≠ []) :
    written (clean path) = components path := by
  have spelled : clean path = Text.join "/" (components path) := by
    rw [clean, ofComponents, relative, if_neg Bool.false_ne_true, if_neg (by simpa using some_)]
  rw [spelled, written, slash_eq, Text.split_join (normal_components path).free some_]

/-- A relative path without components is the current directory. -/
theorem clean_eq_here_iff (relative : isAbsolute path = false) :
    clean path = "." ↔ components path = [] := by
  constructor
  · intro here
    rw [← components_clean, here]
    decide
  · intro none_
    rw [clean, none_, relative]
    decide

/-- The shortest spelling of a path is relative, is not the current directory and does not begin with a
parent component. -/
theorem descends_iff (path : String) :
    clean path ≠ "." ∧ isAbsolute (clean path) = false ∧ (written (clean path)).head? ≠ some ".." ↔
      isAbsolute path = false ∧ components path ≠ [] ∧ (components path).head? ≠ some ".." := by
  rw [isAbsolute_clean]
  constructor
  · rintro ⟨notHere, relative, down⟩
    have some_ := (clean_eq_here_iff relative).not.mp notHere
    exact ⟨relative, some_, written_clean relative some_ ▸ down⟩
  · rintro ⟨relative, some_, down⟩
    exact ⟨(clean_eq_here_iff relative).not.mpr some_, relative, (written_clean relative some_).symm ▸ down⟩

/-- A path that does not begin with a parent component has names alone. -/
theorem isEntryName_components (down : (components path).head? ≠ some "..") :
    ∀ c ∈ components path, IsEntryName c := by
  have normal := normal_components path
  cases split : components path with
  | nil => exact List.forall_mem_nil _
  | cons first others =>
    rw [split] at normal down
    refine normal.names ((normal.each first List.mem_cons_self).resolve_right fun up => down ?_)
    rw [up.1, List.head?_cons]

end Path

open Forwarder.Path (IsEntryName goal isAbsolute ofComponents steps written)

variable {root relative path : String}

/-- A path that leads down is joined to the root. -/
theorem within_eq_ok (isRoot : root ≠ "") (isRelative : isAbsolute relative = false)
    (some_ : Path.components relative ≠ []) (down : (Path.components relative).head? ≠ some "..") :
    within root relative =
      .ok (ofComponents (isAbsolute root) (Path.components root ++ Path.components relative)) := by
  have spelled : ofComponents false (Path.components relative) = Text.join "/" (Path.components relative) := by
    rw [ofComponents, if_neg Bool.false_ne_true, if_neg (by simpa using some_)]
  rw [within, if_neg (by simpa using isRoot), isRelative]
  dsimp only
  rw [if_neg Bool.false_ne_true, if_neg (by simpa using some_), if_neg down, spelled,
    Path.join_names (Path.isEntryName_components down) some_ isRoot]

/-- Only such a path is. -/
theorem descends_of_within (joined : within root relative = .ok path) :
    root ≠ "" ∧ isAbsolute relative = false ∧ Path.components relative ≠ [] ∧
      (Path.components relative).head? ≠ some ".." := by
  rw [within] at joined
  dsimp only at joined
  split_ifs at joined with noRoot absolute none_ up
  exact ⟨by simpa using noRoot, by simpa using absolute, by simpa using none_, up⟩

/-- **What is joined to a root.** A path is joined to a root exactly if there is a root and the shortest
spelling of the path is not the current directory, not absolute and does not begin with a parent component.
The result is a shortest spelling itself, with the components of the root's and those of the path's. The
latter are one name or more, and from wherever the root leads to, the result leads on through them. -/
theorem within_exact (root relative : String) :
    ((∃ path, within root relative = .ok path) ↔
      root ≠ "" ∧ Path.clean relative ≠ "." ∧ isAbsolute (Path.clean relative) = false ∧
        (written (Path.clean relative)).head? ≠ some "..") ∧
    ∀ path, within root relative = .ok path →
      Path.clean path = path ∧ isAbsolute path = isAbsolute root ∧
      steps path = steps (Path.clean root) ++ steps (Path.clean relative) ∧
      steps (Path.clean relative) ≠ [] ∧ (∀ c ∈ steps (Path.clean relative), IsEntryName c) ∧
      ∀ start, (isAbsolute root = true → start = []) →
        goal start (written path) = goal start (written root) ++ steps (Path.clean relative) := by
  rw [Path.descends_iff, Path.steps_clean, Path.steps_clean]
  refine ⟨⟨fun ⟨path, joined⟩ => descends_of_within joined, ?_⟩, fun path joined => ?_⟩
  · rintro ⟨isRoot, isRelative, some_, down⟩
    exact ⟨_, within_eq_ok isRoot isRelative some_ down⟩
  · obtain ⟨isRoot, isRelative, some_, down⟩ := descends_of_within joined
    have names := Path.isEntryName_components down
    have normal := (Path.normal_components root).append names
    rw [within_eq_ok isRoot isRelative some_ down] at joined
    obtain rfl := Except.ok.inj joined
    have absolute := Path.isAbsolute_ofComponents normal
    refine ⟨Path.clean_ofComponents normal, absolute, Path.steps_ofComponents normal, some_, names,
      fun start fromRoot => ?_⟩
    rw [← Path.goal_components (absolute.symm ▸ fromRoot), Path.components_ofComponents normal,
      Path.goal_append, Path.goal_components fromRoot, Path.goal_names names]

theorem within_exact_dotted :
    within "../b/./c/.." "x/.././..z//y/." = .ok "../b/..z/y" ∧
      steps "../b/..z/y" =
        steps (Path.clean "../b/./c/..") ++ steps (Path.clean "x/.././..z//y/.") ∧
      goal ["home", "a"] (written "../b/..z/y") =
        goal ["home", "a"] (written "../b/./c/..") ++ ["..z", "y"] := by
  have joined : within "../b/./c/.." "x/.././..z//y/." = .ok "../b/..z/y" := by
    rw [within_eq_ok (by decide) (by decide) (by decide) (by decide)]
    exact congrArg Except.ok (by decide)
  obtain ⟨-, -, isJoined, -, -, leads⟩ := (within_exact _ _).2 _ joined
  refine ⟨joined, isJoined, ?_⟩
  rw [leads ["home", "a"] fun absolute => absurd absolute (by decide)]
  decide

end Forwarder
