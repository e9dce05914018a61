/-
**What writing does, in closed form.** Creating the directories above a file goes down the components of
its path. Whether it comes to an end, and where it stops if it does not, can be read off the disk as it
was before: the directories made on the way never stand in the way of those below.

* `Disk.obstacle?`, `Disk.firstObstacle?` — what keeps a directory, or one of several, from being made.
* `Disk.Dug` — some directories were made where nothing was.
* **`Disk.makeEach_rungs`** — making directories stops at the first obstacle.
* `Disk.writeFailure?` — why a file cannot be written; **`Disk.write_eq`** — writing it.
-/

import Forwarder.Files.Writing
import Forwarder.Proofs.Disk.Tree

namespace Forwarder.Disk

open Forwarder.Path (advance goal IsEntryName Normal ofComponents)

variable {d e f : Disk} {here place : Place} {absolute : Bool} {front back : List String}
  {component : String}

/-! ### One component -/

/-- Why nothing can be at the path, whose last component is given, on any disk. -/
def blocked? (path component : String) : Option Refusal :=
  match refusedPath? path with
  | some refusal => some refusal
  | none => if isTooLong component then some .nameTooLong else none

theorem blocked?_eq_none {path component : String} :
    blocked? path component = none ↔ refusedPath? path = none ∧ isTooLong component = false := by
  rw [blocked?]
  cases refusedPath? path <;> cases isTooLong component <;> simp

/-- Going one component further. -/
theorem place_concat (normal : Normal absolute (front ++ [component]))
    (cwd : d.isDirAt d.cwd = true) (stands : d.place (ofComponents absolute front) = .ok here) :
    d.place (ofComponents absolute (front ++ [component])) =
      match refusedPath? (ofComponents absolute (front ++ [component])) with
      | some refusal => .error refusal
      | none => d.follow here [component] := by
  rw [place_ofComponents normal.of_append.1 cwd] at stands
  rw [place_ofComponents normal cwd]
  split at stands
  · cases stands
  · cases refusedPath? (ofComponents absolute (front ++ [component])) with
    | some refusal => rfl
    | none => simp only [follow_append, stands]

/-- What is under a name. -/
theorem resolve_name (normal : Normal absolute front) (isName : IsEntryName component)
    (cwd : d.isDirAt d.cwd = true) (stands : d.place (ofComponents absolute front) = .ok here)
    (isDir : d.isDirAt here = true) :
    d.resolve (ofComponents absolute (front ++ [component])) =
      match blocked? (ofComponents absolute (front ++ [component])) component with
      | some refusal => .error refusal
      | none =>
        match d.entry? (here ++ [component]) with
        | none => .error .missing
        | some entry => .ok entry := by
  have followed : d.follow here [component] =
      if isTooLong component then .error .nameTooLong
      else if (d.entry? (here ++ [component])).isNone then .error .missing
      else .ok (here ++ [component]) := by
    rw [follow_cons, if_pos isDir, if_neg (not_or.mpr ⟨isName.some_, isName.here⟩),
      if_neg isName.parent]
    rfl
  rw [resolve, place_concat (normal.concat isName) cwd stands, followed, blocked?]
  cases refusedPath? (ofComponents absolute (front ++ [component])) with
  | some refusal => rfl
  | none =>
    by_cases long : isTooLong component = true
    · simp [long]
    · cases found : d.entry? (here ++ [component]) <;> simp [long, found]

/-- The place that a name stands for. -/
theorem target_name (normal : Normal absolute front) (isName : IsEntryName component)
    (stands : d.place (ofComponents absolute front) = .ok here) :
    d.target (ofComponents absolute (front ++ [component])) =
      match blocked? (ofComponents absolute (front ++ [component])) component with
      | some refusal => .error refusal
      | none => .ok (here ++ [component]) := by
  have both := normal.concat isName
  have slash : component ≠ "/" := fun same => isName.free (same ▸ by decide)
  rw [target, Path.dir_ofComponents both, stands, Path.base_ofComponents both, blocked?]
  cases refusedPath? (ofComponents absolute (front ++ [component])) with
  | some refusal => rfl
  | none =>
    dsimp only
    split
    · exact absurd rfl isName.here
    · exact absurd rfl isName.parent
    · exact absurd rfl slash
    · split_ifs <;> rfl

/-! ### Making directories -/

/-- The paths that lead down the components of `back`, below those of `front`. -/
def rungs (absolute : Bool) (front : List String) : List String → List String
  | [] => []
  | component :: rest =>
    ofComponents absolute (front ++ [component]) :: rungs absolute (front ++ [component]) rest

/-- The places on the way. -/
def stations (here : Place) : List String → List Place
  | [] => []
  | component :: rest => advance here component :: stations (advance here component) rest

theorem ancestors_eq_rungs (normal : Normal absolute back) :
    Path.ancestors (ofComponents absolute back) = rungs absolute [] back := by
  have along (front : List String) : (List.range back.length).map (fun i =>
      ofComponents absolute (front ++ back.take (i + 1))) = rungs absolute front back := by
    clear normal
    induction back generalizing front with
    | nil => rfl
    | cons c rest ih =>
      rw [List.length_cons, List.range_succ_eq_map, List.map_cons, List.map_map, rungs,
        ← ih (front ++ [c])]
      simp [Function.comp_def]
  rw [Path.ancestors_ofComponents normal, ← along []]
  simp only [List.nil_append]

/-- What keeps a directory from being made one component further: the path is impossible, or a file is
there. -/
def obstacle? (d : Disk) (absolute : Bool) (front : List String) (here : Place) (component : String) :
    Option SystemFault :=
  let path := ofComponents absolute (front ++ [component])
  match blocked? path component with
  | some refusal => some (fault "mkdir" path refusal)
  | none =>
    if (d.file? (advance here component)).isSome then some (fault "mkdir" path .notDirectory) else none

theorem obstacle?_eq_none {d : Disk} {absolute : Bool} {front : List String} {here : Place}
    {component : String} : d.obstacle? absolute front here component = none ↔
      blocked? (ofComponents absolute (front ++ [component])) component = none ∧
        (d.file? (advance here component)).isSome = false := by
  rw [obstacle?]
  cases blocked? (ofComponents absolute (front ++ [component])) component <;>
    cases (d.file? (advance here component)).isSome <;> simp

/-- The first obstacle along the components. -/
def firstObstacle? (d : Disk) (absolute : Bool) (front : List String) (here : Place) :
    List String → Option SystemFault
  | [] => none
  | component :: rest =>
    match d.obstacle? absolute front here component with
    | some obstacle => some obstacle
    | none => d.firstObstacle? absolute (front ++ [component]) (advance here component) rest

/-- Obstacles depend on where files are. -/
theorem firstObstacle?_congr {components : List String} (absolute : Bool) (front : List String)
    (here : Place) (same : ∀ place ∈ stations here components,
      (d.file? place).isSome = (e.file? place).isSome) :
    d.firstObstacle? absolute front here components =
      e.firstObstacle? absolute front here components := by
  induction components generalizing front here with
  | nil => rfl
  | cons c rest ih =>
    obtain ⟨first, others⟩ := List.forall_mem_cons.mp same
    simp only [firstObstacle?, obstacle?, first, ih _ _ others]

/-- Directories were made, all of them at places of this kind, where nothing was. -/
structure Dug (places : Place → Prop) (d e : Disk) : Prop where
  cwd : e.cwd = d.cwd
  clock : e.clock = d.clock
  entry : ∀ place, e.entry? place = d.entry? place ∨
    places place ∧ d.entry? place = none ∧ e.entry? place = some .dir

namespace Dug

variable {places others : Place → Prop}

theorem refl (places : Place → Prop) (d : Disk) : Dug places d d :=
  ⟨rfl, rfl, fun _ => .inl rfl⟩

theorem mono (dug : Dug places d e)
    (more : ∀ place, places place → d.entry? place = none → others place) : Dug others d e :=
  ⟨dug.cwd, dug.clock, fun place => (dug.entry place).imp_right
    fun ⟨isPlace, nothing, made⟩ => ⟨more place isPlace nothing, nothing, made⟩⟩

theorem trans (first : Dug places d e) (second : Dug places e f) : Dug places d f where
  cwd := second.cwd.trans first.cwd
  clock := second.clock.trans first.clock
  entry place := by
    rcases first.entry place with same | ⟨member, nothing, made⟩
    · rw [← same]
      exact second.entry place
    · rcases second.entry place with same | ⟨-, gone, -⟩
      · exact .inr ⟨member, nothing, same.trans made⟩
      · rw [made] at gone
        cases gone

theorem isDirAt (dug : Dug places d e) (isDir : d.isDirAt place = true) : e.isDirAt place = true := by
  rw [isDirAt_iff] at isDir ⊢
  rcases dug.entry place with same | ⟨-, nothing, -⟩
  · exact same.trans isDir
  · rw [isDir] at nothing
    cases nothing

theorem file? (dug : Dug places d e) (place : Place) : e.file? place = d.file? place := by
  unfold Disk.file?
  rcases dug.entry place with same | ⟨-, nothing, made⟩
  · rw [same]
  · rw [nothing, made]

end Dug

/-- A single directory. -/
theorem dug_put (some_ : place ≠ []) (nothing : d.entry? place = none) :
    Dug (· = place) d (d.put place .dir) where
  cwd := rfl
  clock := rfl
  entry other := by
    rw [entry?_put d place other .dir some_]
    by_cases same : other = place
    · rw [if_pos same]
      exact .inr ⟨same, same ▸ nothing, rfl⟩
    · exact .inl (if_neg same)

/-- What could be followed still can when there is more. -/
theorem follow_mono {components : List String} (dirs : ∀ q, d.isDirAt q = true → e.isDirAt q = true)
    (entries : ∀ q, e.entry? q = none → d.entry? q = none)
    (followed : d.follow here components = .ok place) : e.follow here components = .ok place := by
  induction components generalizing here with
  | nil => exact followed
  | cons c rest ih =>
    rw [follow_cons] at followed ⊢
    by_cases isDir : d.isDirAt here = true
    · rw [if_pos isDir] at followed
      rw [if_pos (dirs here isDir)]
      split_ifs at followed ⊢ with blank up long nothing gone
      · exact ih followed
      · exact ih followed
      · rw [entries _ (Option.isNone_iff_eq_none.mp nothing)] at gone
        exact absurd rfl gone
      · exact ih followed
    · rw [if_neg isDir] at followed
      cases followed

theorem place_mono {path : String} (cwd : e.cwd = d.cwd)
    (dirs : ∀ q, d.isDirAt q = true → e.isDirAt q = true)
    (entries : ∀ q, e.entry? q = none → d.entry? q = none) (found : d.place path = .ok place) :
    e.place path = .ok place := by
  rw [Disk.place] at found ⊢
  split at found
  · cases found
  · rw [cwd]
    exact follow_mono dirs entries found

theorem Dug.place_eq {places : Place → Prop} (dug : Dug places d e) {path : String}
    (found : d.place path = .ok place) : e.place path = .ok place := by
  refine place_mono dug.cwd (fun _ => dug.isDirAt) (fun q nothing => ?_) found
  rcases dug.entry q with same | ⟨-, -, made⟩
  · exact same ▸ nothing
  · rw [nothing] at made
    cases made

/-- The directories above the working directory are there. -/
def IsGrounded (d : Disk) : Prop :=
  ∀ above, above <+: d.cwd → d.isDirAt above = true

theorem IsGrounded.cwd (grounded : d.IsGrounded) : d.isDirAt d.cwd = true :=
  grounded d.cwd (List.prefix_refl _)

theorem IsTree.isGrounded (tree : d.IsTree) : d.IsGrounded :=
  fun _ => tree.above_cwd

theorem Dug.isGrounded {places : Place → Prop} (dug : Dug places d e) (grounded : d.IsGrounded) :
    e.IsGrounded :=
  fun above isAbove => dug.isDirAt (grounded above (dug.cwd ▸ isAbove))

/-- A directory where nothing was. -/
def withFolder (d : Disk) (place : Place) : Disk :=
  if (d.entry? place).isNone then d.put place .dir else d

theorem dug_withFolder (d : Disk) (place : Place) : Dug (· = place) d (d.withFolder place) := by
  rw [withFolder]
  split
  · next nothing =>
    have none_ := Option.isNone_iff_eq_none.mp nothing
    refine dug_put (fun root => ?_) none_
    rw [root, entry?, if_pos rfl] at none_
    cases none_
  · exact .refl _ d

/-- There is a directory now, unless there is a file. -/
theorem isDirAt_withFolder (noFile : (d.file? place).isSome = false) :
    (d.withFolder place).isDirAt place = true := by
  rw [isDirAt_iff, withFolder]
  cases found : d.entry? place with
  | none =>
    have some_ : place ≠ [] := fun root => by
      rw [root, entry?, if_pos rfl] at found
      cases found
    rw [Option.isNone_none, if_pos rfl, entry?_put d place place .dir some_, if_pos rfl]
  | some entry =>
    cases entry with
    | dir => rwa [Option.isNone_some, if_neg Bool.false_ne_true]
    | file file =>
      rw [file?_eq_some.mpr found] at noFile
      cases noFile

/-- One directory further: it is there, it is made, or there is an obstacle. -/
theorem makeEach_rung (normal : Normal absolute (front ++ [component])) (grounded : d.IsGrounded)
    (stands : d.place (ofComponents absolute front) = .ok here) (isDir : d.isDirAt here = true)
    (low : (∀ c ∈ front, c = "..") → here <+: d.cwd) (paths : List String) :
    d.makeEach (ofComponents absolute (front ++ [component]) :: paths) =
        (match d.obstacle? absolute front here component with
        | some obstacle => (some obstacle, d)
        | none => (d.withFolder (advance here component)).makeEach paths) ∧
      (d.obstacle? absolute front here component = none →
        (d.withFolder (advance here component)).place (ofComponents absolute (front ++ [component])) =
            .ok (advance here component) ∧
          (d.withFolder (advance here component)).isDirAt (advance here component) = true) := by
  have placed := place_concat normal grounded.cwd stands
  have dug := dug_withFolder d (advance here component)
  have placed' := place_concat normal (dug.isGrounded grounded).cwd (dug.place_eq stands)
  rcases normal.each component (List.mem_append_right _ (List.mem_singleton_self _)) with
    isName | ⟨rfl, -⟩
  · have named := resolve_name normal.of_append.1 isName grounded.cwd stands isDir
    have aimed := target_name normal.of_append.1 isName stands
    have further : advance here component = here ++ [component] := by
      simp [advance, isName.some_, isName.here, isName.parent]
    rw [further] at dug placed' ⊢
    rw [obstacle?, further, makeEach, named, aimed]
    cases refused : blocked? (ofComponents absolute (front ++ [component])) component with
    | some refusal => exact ⟨rfl, fun absurd => by cases absurd⟩
    | none =>
      rw [blocked?] at refused
      split at refused
      · cases refused
      next allowed =>
      split at refused
      · cases refused
      next short =>
      dsimp only
      by_cases isFile : (d.file? (here ++ [component])).isSome = true
      · obtain ⟨file, found⟩ := Option.isSome_iff_exists.mp isFile
        rw [if_pos isFile, file?_eq_some.mp found]
        exact ⟨rfl, fun absurd => by cases absurd⟩
      · have isThere := isDirAt_withFolder (Bool.eq_false_iff.mpr isFile)
        rw [if_neg isFile]
        refine ⟨?_, fun _ => ⟨?_, isThere⟩⟩
        · rw [withFolder]
          cases found : d.entry? (here ++ [component]) with
          | none => rfl
          | some entry =>
            cases entry with
            | dir => rfl
            | file file => exact absurd (by rw [file?_eq_some.mpr found]; rfl) isFile
        · rw [placed', allowed, follow_cons, if_pos (dug.isDirAt isDir),
            if_neg (not_or.mpr ⟨isName.some_, isName.here⟩), if_neg isName.parent, if_neg short,
            isDirAt_iff.mp isThere]
          rfl
  · have up : here.dropLast <+: d.cwd := (List.dropLast_prefix here).trans (low normal.parents)
    have isAbove := grounded _ up
    have same : d.withFolder here.dropLast = d := by
      rw [withFolder, isDirAt_iff.mp isAbove]
      rfl
    have noFile : d.file? here.dropLast = none := by
      rw [Disk.file?, isDirAt_iff.mp isAbove]
    have goesUp : d.follow here [".."] = .ok here.dropLast := by
      rw [follow_cons, if_pos isDir]
      rfl
    have advanced : advance here ".." = here.dropLast := rfl
    rw [goesUp] at placed
    rw [advanced, same, obstacle?, advanced, noFile, blocked?, makeEach, resolve, target, placed]
    cases refusedPath? (ofComponents absolute (front ++ [".."])) with
    | some refusal => exact ⟨rfl, fun absurd => by cases absurd⟩
    | none =>
      refine ⟨?_, fun _ => ⟨rfl, isAbove⟩⟩
      simp only [isDirAt_iff.mp isAbove]
      rfl

/-- Making directories has gone as far as it can: it met the first obstacle, or the last directory is
there. -/
structure MadeAlong (d : Disk) (absolute : Bool) (front : List String) (here : Place)
    (back : List String) (outcome : Option SystemFault × Disk) : Prop where
  fault : outcome.1 = d.firstObstacle? absolute front here back
  dug : Dug (· ∈ stations here back) d outcome.2
  reached : outcome.1 = none →
    outcome.2.place (ofComponents absolute (front ++ back)) = .ok (goal here back) ∧
      outcome.2.isDirAt (goal here back) = true

/-- **Making directories** stops at the first obstacle that is there from the start. -/
theorem makeEach_rungs (normal : Normal absolute (front ++ back)) (grounded : d.IsGrounded)
    (stands : d.place (ofComponents absolute front) = .ok here) (isDir : d.isDirAt here = true)
    (low : (∀ c ∈ front, c = "..") → here <+: d.cwd) :
    MadeAlong d absolute front here back (d.makeEach (rungs absolute front back)) := by
  induction back generalizing front here d with
  | nil => exact ⟨rfl, .refl _ d, fun _ => ⟨by rwa [List.append_nil], isDir⟩⟩
  | cons c rest ih =>
    have split : front ++ c :: rest = (front ++ [c]) ++ rest := List.append_cons ..
    rw [split] at normal
    obtain ⟨step, there⟩ := makeEach_rung normal.of_append.1 grounded stands isDir low
      (rungs absolute (front ++ [c]) rest)
    rw [rungs, step]
    cases obstacle : d.obstacle? absolute front here c with
    | some fault =>
      refine ⟨?_, .refl _ d, fun absurd => by cases absurd⟩
      rw [firstObstacle?, obstacle]
    | none =>
      obtain ⟨stands', isDir'⟩ := there obstacle
      have dug := dug_withFolder d (advance here c)
      have made := ih normal (dug.isGrounded grounded) stands' isDir' fun ups => by
        obtain ⟨before, last⟩ := List.forall_mem_append.mp ups
        have up : c = ".." := last c (List.mem_singleton_self c)
        rw [dug.cwd, up]
        exact (List.dropLast_prefix here).trans (low before)
      refine ⟨?_, ?_, ?_⟩
      · rw [firstObstacle?, obstacle]
        exact made.fault.trans (firstObstacle?_congr _ _ _ fun place _ => by rw [dug.file?])
      · refine (dug.mono fun place same _ => ?_).trans
          (made.dug.mono fun place member _ => List.mem_cons_of_mem _ member)
        exact same ▸ List.mem_cons_self
      · intro finished
        obtain ⟨stands'', isDir''⟩ := made.reached finished
        rw [split]
        exact ⟨stands'', isDir''⟩

/-! ### Temporary names -/

theorem digits_plain (count n : Nat) :
    (digits count n).utf8ByteSize = count ∧ '\x00' ∉ (digits count n).toList := by
  have digit : ∀ k < 10, (Nat.digitChar k).utf8Size = 1 ∧ Nat.digitChar k ≠ '\x00' := by decide
  induction count generalizing n with
  | zero => exact ⟨rfl, List.not_mem_nil⟩
  | succ count ih =>
    obtain ⟨one, some_⟩ := digit (n % 10) (Nat.mod_lt n (by decide))
    rw [digits, String.utf8ByteSize_append, String.utf8ByteSize_singleton, (ih _).1, one, String.toList_append,
      String.toList_singleton, List.mem_append, List.mem_singleton, not_or]
    exact ⟨rfl, (ih _).2, Ne.symm some_⟩

/-- **Whether a temporary path is refused** is the same at any time: its number has always ten digits. -/
theorem refusedPath?_temporary (d e : Disk) (dir : String) :
    refusedPath? (d.temporary dir) = refusedPath? (e.temporary dir) := by
  have mark : '.' ∈ ".tmp-".toList := by decide
  have notEmpty (d : Disk) : (d.temporary dir).isEmpty = false := by
    rw [← Bool.not_eq_true, String.isEmpty_iff, temporary, ← String.toList_inj, String.toList_append,
      String.toList_append]
    exact List.ne_nil_of_mem (List.mem_append_left _ (List.mem_append_right _ mark))
  have size (d : Disk) : (d.temporary dir).utf8ByteSize =
      ((if Text.endsIn dir "/" then dir else dir ++ "/") ++ ".tmp-").utf8ByteSize + 10 := by
    rw [temporary, String.utf8ByteSize_append, (digits_plain 10 d.clock).1]
  have nul (d : Disk) : (d.temporary dir).toList.contains '\x00' =
      ((if Text.endsIn dir "/" then dir else dir ++ "/") ++ ".tmp-").toList.contains '\x00' := by
    have free := decide_eq_false (digits_plain 10 d.clock).2
    rw [← List.contains_eq_mem] at free
    rw [temporary, String.toList_append, List.contains_append, free, Bool.or_false]
  simp only [refusedPath?, notEmpty, size, nul]

/-! ### Writing -/

/-- Where relative and absolute paths start. -/
def ground (d : Disk) (absolute : Bool) : Place :=
  if absolute then [] else d.cwd

/-- The place that a path names, by its components. -/
theorem spot_eq_goal (d : Disk) (path : String) :
    d.spot path = goal (d.ground (Path.isAbsolute path)) (Path.components path) := by
  have fromRoot : Path.isAbsolute path = true → d.start path = [] := fun absolute => if_pos absolute
  rw [spot, ← Path.goal_components fromRoot]
  rfl

theorem spot_ofComponents {components : List String} (normal : Normal absolute components) :
    d.spot (ofComponents absolute components) = goal (d.ground absolute) components := by
  rw [spot_eq_goal, Path.isAbsolute_ofComponents normal, Path.components_ofComponents normal]

theorem ground_above (d : Disk) (absolute : Bool) : d.ground absolute <+: d.cwd := by
  cases absolute
  · exact List.prefix_refl _
  · exact List.nil_prefix

/-- The places on the way are above the goal, or above the place where it starts. -/
theorem mem_stations {components : List String} (normal : Normal absolute components)
    (member : place ∈ stations here components) : place <+: goal here components ∨ place <+: here := by
  induction components generalizing here with
  | nil => exact absurd member List.not_mem_nil
  | cons c rest ih =>
    have parts : Normal absolute [c] ∧ Normal absolute rest := Normal.of_append normal
    have others := parts.2
    have further : place <+: goal (advance here c) rest ∨ place <+: advance here c := by
      rcases List.mem_cons.mp member with rfl | member
      · exact .inr (List.prefix_refl _)
      · exact ih others member
    rcases normal.each c List.mem_cons_self with isName | ⟨rfl, -⟩
    · have names : ∀ other ∈ rest, IsEntryName other := fun other isOther =>
        (others.each other isOther).resolve_right fun up =>
          (List.rel_of_pairwise_cons normal.direct isOther up.1).elim isName.some_
            (Or.rec isName.here isName.parent)
      have below : advance here c <+: goal (advance here c) rest := by
        rw [Path.goal_names names]
        exact List.prefix_append _ _
      exact .inl (further.elim id fun isAbove => isAbove.trans below)
    · exact further.imp_right fun isAbove => isAbove.trans (List.dropLast_prefix here)

/-- All directories are made above the goal. -/
theorem makeDirs_along {components : List String} (normal : Normal absolute components)
    (grounded : d.IsGrounded) :
    let outcome := d.makeDirs (ofComponents absolute components)
    outcome.1 = d.firstObstacle? absolute [] (d.ground absolute) components ∧
      Dug (· <+: goal (d.ground absolute) components) d outcome.2 ∧
      (outcome.1 = none →
        outcome.2.place (ofComponents absolute components) = .ok (goal (d.ground absolute) components) ∧
          outcome.2.isDirAt (goal (d.ground absolute) components) = true) := by
  have isDir : d.isDirAt (d.ground absolute) = true := by
    cases absolute
    · exact grounded.cwd
    · rfl
  have stands : d.place (ofComponents absolute []) = .ok (d.ground absolute) := by
    rw [place_ofComponents .nil grounded.cwd]
    cases absolute <;> rfl
  rw [makeDirs, ancestors_eq_rungs normal]
  have along := makeEach_rungs normal grounded stands isDir fun _ => ground_above d absolute
  refine ⟨along.fault, along.dug.mono fun place member nothing => ?_, along.reached⟩
  refine (mem_stations normal member).resolve_right fun isAbove => ?_
  rw [isDirAt_iff.mp (grounded place (isAbove.trans (ground_above d absolute)))] at nothing
  cases nothing

/-- No file could be made under a temporary name. -/
def uncreated (d : Disk) (dir path : String) (refusal : Refusal) : Failure :=
  .fileSystem "write" path (some (.system (fault "open" (d.temporary dir) refusal)))

/-- A file under its temporary name could not be given the name it should have. -/
def unrenamed (d : Disk) (dir path : String) (refusal : Refusal) : Failure :=
  .fileSystem "write" path (some (.system ⟨"rename", [d.temporary dir, path], refusal⟩))

/-- Why a file cannot be written: its path climbs, a directory cannot be made, the temporary path is too
long, or its name cannot be given to a file. -/
def writeFailure? (d : Disk) (absolute : Bool) (front : List String) (name : String) : Option Failure :=
  let dir := ofComponents absolute front
  let path := ofComponents absolute (front ++ [name])
  let here := goal (d.ground absolute) front
  if climbs path then some (.fileSystem "resolve path" path (some (climbing path)))
  else
    match d.firstObstacle? absolute [] (d.ground absolute) front with
    | some obstacle => some (.fileSystem "create directory" dir (some (.system obstacle)))
    | none =>
      match refusedPath? (d.temporary dir) with
      | some refusal => some (d.uncreated dir path refusal)
      | none =>
        match blocked? path name with
        | some refusal => some (d.unrenamed dir path refusal)
        | none => if d.isDirAt (here ++ [name]) then some (d.unrenamed dir path .exists) else none

/-- A file can have the name, in the directory that the components in front lead to. -/
structure Fits (d : Disk) (absolute : Bool) (front : List String) (name : String) : Prop where
  level : climbs (ofComponents absolute (front ++ [name])) = false
  free : d.firstObstacle? absolute [] (d.ground absolute) front = none
  allowed : blocked? (ofComponents absolute (front ++ [name])) name = none
  noDir : d.isDirAt (goal (d.ground absolute) front ++ [name]) = false

/-- A file can be written if it can have its name, and a temporary one in front of it. -/
theorem writable_iff {absolute : Bool} {front : List String} {name : String} :
    d.writeFailure? absolute front name = none ↔
      d.Fits absolute front name ∧ refusedPath? (d.temporary (ofComponents absolute front)) = none := by
  have parts : d.Fits absolute front name ↔ climbs (ofComponents absolute (front ++ [name])) = false ∧
      d.firstObstacle? absolute [] (d.ground absolute) front = none ∧
      blocked? (ofComponents absolute (front ++ [name])) name = none ∧
      d.isDirAt (goal (d.ground absolute) front ++ [name]) = false :=
    ⟨fun ⟨level, free, allowed, noDir⟩ => ⟨level, free, allowed, noDir⟩,
      fun ⟨level, free, allowed, noDir⟩ => ⟨level, free, allowed, noDir⟩⟩
  rw [writeFailure?, parts]
  cases climbs (ofComponents absolute (front ++ [name]))
  · cases d.firstObstacle? absolute [] (d.ground absolute) front <;>
      cases refusedPath? (d.temporary (ofComponents absolute front)) <;>
        cases blocked? (ofComponents absolute (front ++ [name])) name <;>
          cases d.isDirAt (goal (d.ground absolute) front ++ [name]) <;> simp
  · simp

/-- A text is at the place. -/
def withText (d : Disk) (place : Place) (text : String) : Disk :=
  { d.put place (.file ⟨.text text, .tick d.clock⟩) with clock := d.clock + 1 }

/-- **A text is given its name**, in closed form. -/
theorem install_eq {name : String} (normal : Normal absolute front) (isName : IsEntryName name)
    (cwd : d.isDirAt d.cwd = true) (stands : d.place (ofComponents absolute front) = .ok here)
    (isDir : d.isDirAt here = true) (temporary text : String) :
    d.install temporary (ofComponents absolute (front ++ [name])) text =
      match blocked? (ofComponents absolute (front ++ [name])) name with
      | some refusal => .error ⟨"rename", [temporary, ofComponents absolute (front ++ [name])], refusal⟩
      | none =>
        if d.isDirAt (here ++ [name]) then
          .error ⟨"rename", [temporary, ofComponents absolute (front ++ [name])], .exists⟩
        else .ok (d.withText (here ++ [name]) text) := by
  rw [install, resolve_name normal isName cwd stands isDir, target_name normal isName stands]
  cases blocked? (ofComponents absolute (front ++ [name])) name with
  | some refusal => rfl
  | none =>
    rw [isDirAt]
    rcases d.entry? (here ++ [name]) with _ | _ | file <;> rfl

/-- The directories on the way to a file are not at its place. -/
theorem Dug.entry?_name {name : String} (dug : Dug (· <+: here) d e) :
    e.entry? (here ++ [name]) = d.entry? (here ++ [name]) := by
  refine (dug.entry _).resolve_right fun ⟨isAbove, _⟩ => ?_
  have shorter := isAbove.length_le
  rw [List.length_append, List.length_singleton] at shorter
  exact absurd shorter (Nat.not_succ_le_self _)

/-- Directories were made, and then a file was written. -/
structure WrittenAt (d : Disk) (place : Place) (text : String) (e : Disk) : Prop where
  cwd : e.cwd = d.cwd
  file : e.file? place = some ⟨.text text, .tick d.clock⟩
  others : ∃ made, Dug (fun above => above <+: place ∧ above ≠ place) d made ∧
    made.isDirAt place.dropLast = true ∧ made.isDirAt place = false ∧
    ∀ other, other ≠ place → e.entry? other = made.entry? other

/-- Files at other places are as they were. -/
theorem WrittenAt.file? {text : String} (written : WrittenAt d place text e) {other : Place}
    (away : other ≠ place) : e.file? other = d.file? other := by
  obtain ⟨made, dug, -, -, others⟩ := written.others
  rw [Disk.file?, others other away, ← Disk.file?, dug.file?]

theorem checkedPath_ofComponents {components : List String} (normal : Normal absolute components) :
    checkedPath (ofComponents absolute components) =
      if climbs (ofComponents absolute components) then .error (climbing (ofComponents absolute components))
      else .ok (ofComponents absolute components) := by
  have some_ : (ofComponents absolute components).isEmpty = false := by
    simpa using Path.ne_empty_ofComponents normal
  rw [checkedPath, some_, if_neg Bool.false_ne_true, Path.clean_ofComponents normal]

/-- A text at a place where no directory is, below directories that were made. -/
theorem Dug.writtenAt {name : String} (dug : Dug (· <+: here) d e) (isDir : e.isDirAt here = true)
    (noDir : d.isDirAt (here ++ [name]) = false) (text : String) :
    WrittenAt d (here ++ [name]) text (e.withText (here ++ [name]) text) := by
  have some_ : here ++ [name] ≠ [] := List.append_ne_nil_of_right_ne_nil _ (List.cons_ne_nil _ _)
  have replaced (other : Place) := entry?_put e (here ++ [name]) other (.file ⟨.text text, .tick e.clock⟩) some_
  refine ⟨dug.cwd, ?_, e, dug.mono fun place isAbove _ => ?_, ?_, ?_, fun other away => ?_⟩
  · rw [← dug.clock]
    exact file?_eq_some.mpr ((replaced _).trans (if_pos rfl))
  · refine ⟨isAbove.trans (List.prefix_append _ _), fun same => ?_⟩
    have shorter := isAbove.length_le
    rw [same, List.length_append, List.length_singleton] at shorter
    exact absurd shorter (Nat.not_succ_le_self _)
  · rwa [List.dropLast_concat]
  · rwa [Disk.isDirAt, dug.entry?_name, ← Disk.isDirAt]
  · exact (replaced other).trans (if_neg away)

/-- **Writing a file**, in closed form. -/
theorem write_eq {front : List String} {name : String} (normal : Normal absolute front)
    (isName : IsEntryName name) (grounded : d.IsGrounded) (text : String) :
    match d.writeFailure? absolute front name with
    | some failure => (d.write (ofComponents absolute (front ++ [name])) text).1 = .error failure ∧
        Dug (· <+: goal (d.ground absolute) front) d
          (d.write (ofComponents absolute (front ++ [name])) text).2
    | none => (d.write (ofComponents absolute (front ++ [name])) text).1 = .ok () ∧
        WrittenAt d (goal (d.ground absolute) front ++ [name]) text
          (d.write (ofComponents absolute (front ++ [name])) text).2 := by
  have both := normal.concat isName
  rw [writeFailure?, write, checkedPath_ofComponents both]
  by_cases climbs_ : climbs (ofComponents absolute (front ++ [name])) = true
  · simp only [climbs_, if_true]
    exact ⟨trivial, .refl _ d⟩
  have along := makeDirs_along normal grounded
  simp only [climbs_, if_false, Bool.false_eq_true, Path.dir_ofComponents both]
  generalize d.makeDirs (ofComponents absolute front) = outcome at along ⊢
  obtain ⟨obstacle, made⟩ := outcome
  obtain ⟨isFault, dug, reached⟩ := along
  rw [← isFault]
  cases obstacle with
  | some obstacle => exact ⟨rfl, dug⟩
  | none =>
    obtain ⟨stands, isDir⟩ := reached rfl
    have sameTemporary : made.temporary (ofComponents absolute front) =
        d.temporary (ofComponents absolute front) := by rw [temporary, temporary, dug.clock]
    have sameDir : made.isDirAt (goal (d.ground absolute) front ++ [name]) =
        d.isDirAt (goal (d.ground absolute) front ++ [name]) := by rw [isDirAt, isDirAt, dug.entry?_name]
    dsimp only
    rw [replace, sameTemporary, install_eq normal isName (dug.isGrounded grounded).cwd stands isDir, sameDir]
    cases refusedPath? (d.temporary (ofComponents absolute front)) with
    | some refusal => exact ⟨rfl, dug⟩
    | none =>
      cases blocked? (ofComponents absolute (front ++ [name])) name with
      | some refusal => exact ⟨rfl, dug⟩
      | none =>
        cases isThere : d.isDirAt (goal (d.ground absolute) front ++ [name]) with
        | true => exact ⟨rfl, dug⟩
        | false => exact ⟨rfl, dug.writtenAt isDir isThere text⟩

end Forwarder.Disk
