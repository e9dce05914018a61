/-
**Paths and their components.** The shortest spelling of a path is made of its components: parent
components at the start, and then names. What is put together in this way is taken apart again, so the
operations on spellings are operations on lists of components.

* `IsEntryName` — a component that names an entry of a directory.
* `Direct` — no parent component stands behind a name.
* `Normal` — the components of a shortest spelling.
* `normal_components`, `components_ofComponents` — shortest spellings and normal lists, back and forth.
* `dir_ofComponents`, `base_ofComponents`, `ancestors_ofComponents`, `components_join` — the operations.
* `goal` — where components lead when nothing is in their way; `goal_components` — cleaning a path
  does not change it.
-/

import Mathlib.Data.List.Basic
import Forwarder.Path
import Forwarder.Proofs.Text.Pieces

namespace Forwarder.Path

/-- The component leaves one where one is. -/
def IsBlank (component : String) : Prop :=
  component = "" ∨ component = "."

/-- The component can be the name of an entry. -/
structure IsEntryName (component : String) : Prop where
  some_ : component ≠ ""
  here : component ≠ "."
  parent : component ≠ ".."
  free : '/' ∉ component.toList

/-- No parent component stands behind a name. -/
def Direct (components : List String) : Prop :=
  components.Pairwise fun first second =>
    second = ".." → first = "" ∨ first = "." ∨ first = ".."

instance (components : List String) : Decidable (Direct components) :=
  inferInstanceAs (Decidable (List.Pairwise _ _))

/-- The components of a shortest spelling. -/
structure Normal (absolute : Bool) (components : List String) : Prop where
  each : ∀ c ∈ components, IsEntryName c ∨ c = ".." ∧ absolute = false
  direct : Direct components

variable {absolute : Bool} {components front back : List String} {component : String}

namespace Normal

theorem nil : Normal absolute [] :=
  ⟨List.forall_mem_nil _, .nil⟩

theorem of_append (normal : Normal absolute (front ++ back)) :
    Normal absolute front ∧ Normal absolute back := by
  obtain ⟨front_, back_, -⟩ := List.pairwise_append.mp normal.direct
  exact ⟨⟨fun c member => normal.each c (List.mem_append_left _ member), front_⟩,
    ⟨fun c member => normal.each c (List.mem_append_right _ member), back_⟩⟩

/-- A name may follow on anything. -/
theorem concat (normal : Normal absolute front) (isName : IsEntryName component) :
    Normal absolute (front ++ [component]) where
  each := List.forall_mem_append.mpr ⟨normal.each, List.forall_mem_singleton.mpr (.inl isName)⟩
  direct := List.pairwise_append.mpr ⟨normal.direct, List.pairwise_singleton _ _, fun _ _ _ isLast up =>
    absurd (List.mem_singleton.mp isLast ▸ up) isName.parent⟩

theorem append (normal : Normal absolute front) (names : ∀ c ∈ back, IsEntryName c) :
    Normal absolute (front ++ back) where
  each := List.forall_mem_append.mpr ⟨normal.each, fun c member => .inl (names c member)⟩
  direct := by
    refine List.pairwise_append.mpr ⟨normal.direct, ?_, fun _ _ c member up => ?_⟩
    · exact List.Pairwise.imp_of_mem (fun _ member _ up => absurd up (names _ member).parent)
        (List.pairwise_of_forall fun _ _ => trivial)
    · exact absurd up (names c member).parent

/-- Above a parent component there are only parent components. -/
theorem parents (normal : Normal absolute (front ++ [".."])) : ∀ c ∈ front, c = ".." := by
  intro c member
  obtain ⟨-, -, across⟩ := List.pairwise_append.mp normal.direct
  rcases normal.each c (List.mem_append_left _ member) with isName | ⟨up, -⟩
  · rcases across c member ".." (List.mem_singleton_self _) rfl with empty | here | up
    · exact absurd empty isName.some_
    · exact absurd here isName.here
    · exact up
  · exact up

/-- Behind a name there are only names. -/
theorem names (normal : Normal absolute (component :: back)) (isName : IsEntryName component) :
    ∀ c ∈ component :: back, IsEntryName c := by
  refine List.forall_mem_cons.mpr ⟨isName, fun other member => ?_⟩
  refine (normal.each other (List.mem_cons_of_mem _ member)).resolve_right fun up => ?_
  rcases (List.pairwise_cons.mp normal.direct).1 other member up.1 with empty | here | parent
  · exact isName.some_ empty
  · exact isName.here here
  · exact isName.parent parent

theorem free (normal : Normal absolute components) : ∀ c ∈ components, '/' ∉ c.toList := by
  intro c member
  rcases normal.each c member with isName | ⟨rfl, -⟩
  · exact isName.free
  · decide

theorem some_ (normal : Normal absolute components) : ∀ c ∈ components, ¬IsBlank c := by
  intro c member
  rcases normal.each c member with isName | ⟨rfl, -⟩
  · exact not_or.mpr ⟨isName.some_, isName.here⟩
  · exact not_or.mpr ⟨by decide, by decide⟩

end Normal

/-! ### Components -/

theorem push_blank (reversed : List String) (blank : IsBlank component) :
    push absolute reversed component = reversed := by
  unfold push
  exact if_pos blank

theorem push_name (reversed : List String) (isName : IsEntryName component) :
    push absolute reversed component = component :: reversed := by
  unfold push
  rw [if_neg (not_or.mpr ⟨isName.some_, isName.here⟩), if_neg isName.parent]

/-- A component that keeps the list normal is put behind it. -/
theorem push_normal {reversed : List String} (normal : Normal absolute (reversed.reverse ++ [component])) :
    push absolute reversed component = component :: reversed := by
  rcases normal.each component (List.mem_append_right _ (List.mem_singleton_self _)) with
    isName | ⟨rfl, relative⟩
  · exact push_name reversed isName
  · cases reversed with
    | nil => simp [push, relative]
    | cons last before =>
      have up : last = ".." := normal.parents last (List.mem_reverse.mpr List.mem_cons_self)
      simp [push, up]

theorem foldl_push_normal : ∀ (components reversed : List String),
    Normal absolute (reversed.reverse ++ components) →
      components.foldl (push absolute) reversed = components.reverse ++ reversed
  | [], _, _ => rfl
  | c :: rest, reversed, normal => by
    rw [List.append_cons] at normal
    rw [List.foldl_cons, push_normal normal.of_append.1,
      foldl_push_normal rest (c :: reversed) (by rwa [List.reverse_cons]), List.reverse_cons,
      List.append_assoc, List.singleton_append]

theorem foldl_push_blanks {blanks : List String} (blank : ∀ b ∈ blanks, IsBlank b)
    (reversed : List String) : blanks.foldl (push absolute) reversed = reversed := by
  induction blanks with
  | nil => rfl
  | cons b blanks ih =>
    obtain ⟨here, others⟩ := List.forall_mem_cons.mp blank
    rw [List.foldl_cons, push_blank _ here, ih others]

theorem normal_push {reversed : List String} (normal : Normal absolute reversed.reverse)
    (free : '/' ∉ component.toList) : Normal absolute (push absolute reversed component).reverse := by
  by_cases blank : IsBlank component
  · rwa [push_blank _ blank]
  obtain ⟨some_, here⟩ := not_or.mp blank
  by_cases up : component = ".."
  · subst up
    cases reversed with
    | nil =>
      cases absolute
      · exact ⟨List.forall_mem_singleton.mpr (.inr ⟨rfl, rfl⟩), List.pairwise_singleton _ _⟩
      · exact .nil
    | cons last before =>
      rw [List.reverse_cons] at normal
      by_cases double : last = ".."
      · subst double
        have ups := normal.parents
        have relative : absolute = false :=
          (normal.each ".." (List.mem_append_right _ (List.mem_singleton_self _))).elim
            (fun isName => absurd rfl isName.parent) And.right
        have all : ∀ c ∈ before.reverse ++ [".."] ++ [".."], c = ".." := by
          simpa [or_imp, forall_and] using fun c member => ups c (List.mem_reverse.mpr member)
        have pushed : (push absolute (".." :: before) "..").reverse = before.reverse ++ [".."] ++ [".."] := by
          simp [push]
        rw [pushed]
        refine ⟨fun c member => .inr ⟨all c member, relative⟩, ?_⟩
        exact List.pairwise_of_forall_mem_list fun c member _ _ _ => .inr (.inr (all c member))
      · have pushed : push absolute (last :: before) ".." = before := by simp [push, double]
        rw [pushed]
        exact normal.of_append.1
  · have isName : IsEntryName component := ⟨some_, here, up, free⟩
    rw [push_name _ isName, List.reverse_cons]
    exact normal.concat isName

/-- Entry names are kept, and what is empty is dropped. -/
theorem foldl_push_plain {plain : List String} (each : ∀ c ∈ plain, c = "" ∨ IsEntryName c)
    (reversed : List String) :
    plain.foldl (push absolute) reversed = (plain.filter (· != "")).reverse ++ reversed := by
  induction plain generalizing reversed with
  | nil => rfl
  | cons c plain ih =>
    obtain ⟨first, others⟩ := List.forall_mem_cons.mp each
    rw [List.foldl_cons, ih others]
    rcases first with rfl | isName
    · rw [push_blank _ (.inl rfl), List.filter_cons_of_neg (by decide)]
    · rw [push_name _ isName, List.filter_cons_of_pos (by simpa using isName.some_),
        List.reverse_cons, List.append_assoc, List.singleton_append]

/-- The components of a path without parent components and points. -/
theorem components_of_plain {path : String} (each : ∀ c ∈ written path, c = "" ∨ IsEntryName c) :
    Path.components path = (written path).filter (· != "") := by
  rw [Path.components, foldl_push_plain each, List.append_nil, List.reverse_reverse]

/-- The components of a path are normal. -/
theorem normal_components (path : String) : Normal (isAbsolute path) (Path.components path) :=
  List.foldlRecOn (motive := fun reversed : List String => Normal (isAbsolute path) reversed.reverse)
    _ _ .nil
    fun _ normal _ member => normal_push normal (Text.not_mem_of_mem_split member)

/-! ### Spellings -/

theorem slash_eq : "/" = String.singleton '/' :=
  rfl

/-- The spelling of normal components is split into them again, behind blanks. -/
theorem written_ofComponents (normal : Normal absolute components) : ∃ blanks,
    (∀ b ∈ blanks, IsBlank b) ∧ written (ofComponents absolute components) = blanks ++ components := by
  have free := normal.free
  cases absolute with
  | true =>
    refine ⟨if components = [] then ["", ""] else [""], ?_, ?_⟩
    · split <;> simp [IsBlank]
    · have spelled : written (ofComponents true components) =
          "" :: Text.split '/' (Text.join "/" components) := by
        simp [written, ofComponents, Text.split, Text.pieces]
      rw [spelled]
      split
      · next empty =>
        subst empty
        decide
      · next some_ => rw [slash_eq, Text.split_join free some_, List.singleton_append]
  | false =>
    cases components with
    | nil => exact ⟨["."], by simp [IsBlank], by decide⟩
    | cons c rest =>
      refine ⟨[], List.forall_mem_nil _, ?_⟩
      have spelled : ofComponents false (c :: rest) = Text.join "/" (c :: rest) := rfl
      rw [spelled, written, slash_eq, Text.split_join free (List.cons_ne_nil _ _), List.nil_append]

/-- A text that starts with a character other than a slash is relative. -/
theorem isAbsolute_iff {path : String} : isAbsolute path = true ↔ ∃ rest, path.toList = '/' :: rest := by
  rw [isAbsolute, Text.startsBy, List.isPrefixOf_iff_prefix]
  constructor
  · rintro ⟨rest, isRest⟩
    exact ⟨rest, isRest.symm⟩
  · rintro ⟨rest, isRest⟩
    exact ⟨rest, isRest.symm⟩

theorem isAbsolute_append {front : String} (some_ : front ≠ "") (back : String) :
    isAbsolute (front ++ back) = isAbsolute front := by
  obtain ⟨c, cs, chars⟩ := List.exists_cons_of_ne_nil (String.toList_eq_nil_iff.not.mpr some_)
  rw [Bool.eq_iff_iff, isAbsolute_iff, isAbsolute_iff, String.toList_append, chars]
  simp

theorem isAbsolute_ofComponents (normal : Normal absolute components) :
    isAbsolute (ofComponents absolute components) = absolute := by
  cases absolute with
  | true => exact isAbsolute_iff.mpr ⟨_, by simp [ofComponents]; rfl⟩
  | false =>
    cases components with
    | nil => decide
    | cons c rest =>
      have some_ : c ≠ "" := fun empty => normal.some_ c List.mem_cons_self (.inl empty)
      have free := normal.free c List.mem_cons_self
      obtain ⟨first, others, chars⟩ := List.exists_cons_of_ne_nil (String.toList_eq_nil_iff.not.mpr some_)
      have spelled : (ofComponents false (c :: rest)).toList = first :: (others ++
          (Text.joinWith '/' ((c :: rest).map String.toList)).drop c.toList.length) := by
        have joined : ofComponents false (c :: rest) = Text.join "/" (c :: rest) := rfl
        rw [joined, slash_eq, Text.toList_join]
        cases rest <;> simp [Text.joinWith, chars]
      rw [Bool.eq_false_iff]
      intro isAbs
      obtain ⟨tail, starts⟩ := isAbsolute_iff.mp isAbs
      rw [spelled] at starts
      rw [chars] at free
      exact free ((List.cons.inj starts).1 ▸ List.mem_cons_self)

/-- **Shortest spellings are taken apart again.** -/
theorem components_ofComponents (normal : Normal absolute components) :
    Path.components (ofComponents absolute components) = components := by
  obtain ⟨blanks, blank, isWritten⟩ := written_ofComponents normal
  rw [Path.components, isWritten, isAbsolute_ofComponents normal, List.foldl_append,
    foldl_push_blanks blank, foldl_push_normal _ _ normal, List.append_nil, List.reverse_reverse]

theorem clean_ofComponents (normal : Normal absolute components) :
    clean (ofComponents absolute components) = ofComponents absolute components := by
  rw [clean, components_ofComponents normal, isAbsolute_ofComponents normal]

theorem isAbsolute_clean (path : String) : isAbsolute (clean path) = isAbsolute path :=
  isAbsolute_ofComponents (normal_components path)

theorem components_clean (path : String) : Path.components (clean path) = Path.components path :=
  components_ofComponents (normal_components path)

/-- A clean path leads up before it leads down. -/
theorem direct_clean (path : String) : Direct (written (clean path)) := by
  have normal := normal_components path
  obtain ⟨blanks, blank, isWritten⟩ := written_ofComponents normal
  rw [clean, isWritten]
  refine List.pairwise_append.mpr ⟨?_, normal.direct, fun b member _ _ _ => ?_⟩
  · exact List.pairwise_of_forall_mem_list fun b member _ _ _ => (blank b member).imp_right .inl
  · exact (blank b member).imp_right .inl

/-- Cleaning twice is cleaning once. -/
theorem clean_clean (path : String) : clean (clean path) = clean path :=
  clean_ofComponents (normal_components path)

/-! ### Operations -/

theorem written_append (front back : String) :
    written (front ++ "/" ++ back) = written front ++ written back :=
  Text.split_append '/' front back

/-- The components that are written are those of the path. -/
theorem join_written (path : String) : Text.join "/" (written path) = path := by
  refine String.toList_injective ?_
  rw [slash_eq, Text.toList_join, written, Text.split, List.map_map]
  simpa using Text.joinWith_pieces '/' path.toList

theorem ne_empty_ofComponents (normal : Normal absolute components) :
    ofComponents absolute components ≠ "" := by
  intro empty
  have same := components_ofComponents normal
  rw [empty] at same
  subst same
  cases absolute <;> revert empty <;> decide

theorem clean_ne_empty (path : String) : clean path ≠ "" :=
  ne_empty_ofComponents (normal_components path)

/-- A slash at the end makes no difference. -/
theorem clean_slash {path : String} (some_ : path ≠ "") : clean (path ++ "/") = clean path := by
  have isWritten : written (path ++ "/") = written path ++ [""] := by
    have split := written_append path ""
    rwa [String.append_empty] at split
  have same : isAbsolute (path ++ "/") = isAbsolute path := isAbsolute_append some_ "/"
  rw [clean, clean, Path.components, Path.components, same, isWritten, List.foldl_append,
    foldl_push_blanks (List.forall_mem_singleton.mpr (.inl rfl))]

theorem ofComponents_concat (some_ : front ≠ []) (component : String) :
    ofComponents absolute (front ++ [component]) =
      ofComponents absolute front ++ "/" ++ component := by
  have joined : Text.join "/" (front ++ [component]) = Text.join "/" front ++ "/" ++ component := by
    rw [slash_eq]
    exact Text.join_append some_ component
  cases absolute with
  | true => simp [ofComponents, joined, String.append_assoc]
  | false => simp [ofComponents, joined, some_]

/-- A spelling ends in its last component, which stands alone or behind a slash. -/
theorem toList_ofComponents_concat (absolute : Bool) (front : List String) (component : String) :
    (ofComponents absolute (front ++ [component])).toList = component.toList ∨
      ∃ above, (ofComponents absolute (front ++ [component])).toList =
        above ++ '/' :: component.toList := by
  rcases eq_or_ne front [] with rfl | some_
  · cases absolute with
    | true => exact .inr ⟨[], by simp [ofComponents, Text.join]⟩
    | false => exact .inl (by simp [ofComponents, Text.join])
  · exact .inr ⟨(ofComponents absolute front).toList, by simp [ofComponents_concat some_]⟩

/-- The path above a component. -/
theorem dir_ofComponents (normal : Normal absolute (front ++ [component])) :
    dir (ofComponents absolute (front ++ [component])) = ofComponents absolute front := by
  have free : '/' ∉ component.toList :=
    normal.free component (List.mem_append_right _ (List.mem_singleton_self _))
  rcases eq_or_ne front [] with rfl | some_
  · cases absolute with
    | true =>
      have spelled : (ofComponents true ([] ++ [component])).toList = [] ++ '/' :: component.toList := by
        simp [ofComponents, Text.join]
      have isClean : clean (String.ofList [] ++ "/") = ofComponents true [] := by decide
      simp only [dir, spelled, Text.beforeLast_concat free, isClean]
      simp
    | false =>
      have spelled : (ofComponents false ([] ++ [component])).toList = component.toList := by
        simp [ofComponents, Text.join]
      simp only [dir, spelled]
      simp [free, ofComponents]
  · have spelled : (ofComponents absolute (front ++ [component])).toList =
        (ofComponents absolute front).toList ++ '/' :: component.toList := by
      simp [ofComponents_concat some_]
    have isClean : clean (ofComponents absolute front ++ "/") = ofComponents absolute front := by
      rw [clean_slash (ne_empty_ofComponents normal.of_append.1), clean_ofComponents normal.of_append.1]
    simp [dir, spelled, Text.beforeLast_concat free, isClean]

/-- The last component of a path as it is written. -/
theorem base_of_ending {path : String} (free : '/' ∉ component.toList) (isName : component ≠ "")
    (spelled : path.toList = component.toList ∨ ∃ above, path.toList = above ++ '/' :: component.toList) :
    base path = component := by
  have some_ : component.toList ≠ [] := String.toList_eq_nil_iff.not.mpr isName
  have notSlash : ∀ c ∈ component.toList.reverse.head?, (c == '/') = false := by
    intro c isLast
    have isMember : c ∈ component.toList := List.mem_reverse.mp (List.mem_of_mem_head? isLast)
    simpa using fun same : c = '/' => free (same ▸ isMember)
  obtain ⟨last, others, chars⟩ :=
    List.exists_cons_of_ne_nil (List.reverse_eq_nil_iff.not.mpr some_)
  rw [chars] at notSlash
  have ne_slash : (last == '/') = false := notSlash last rfl
  rw [base]
  rcases spelled with spelled | ⟨above, spelled⟩
  · have isNotEmpty : path.isEmpty = false := by
      simpa using fun empty : path = "" => some_ (by rw [← spelled, empty]; rfl)
    have stripped : Text.dropSlashes path.toList = component.toList := by
      rw [spelled, Text.dropSlashes, chars, List.dropWhile_cons_of_neg (by simp [ne_slash]), ← chars,
        List.reverse_reverse]
    simp [isNotEmpty, stripped, Text.afterLast_free free, isName]
  · have isNotEmpty : path.isEmpty = false := by
      simpa using fun empty : path = "" => by simp [empty] at spelled
    have stripped : Text.dropSlashes path.toList = above ++ '/' :: component.toList := by
      rw [spelled, Text.dropSlashes, List.reverse_append, List.reverse_cons, chars, List.cons_append,
        List.cons_append, List.dropWhile_cons_of_neg (by simp [ne_slash]), ← List.cons_append,
        ← List.cons_append, ← chars]
      simp
    simp [isNotEmpty, stripped, Text.afterLast_concat free]

/-- The last component. -/
theorem base_ofComponents (normal : Normal absolute (front ++ [component])) :
    base (ofComponents absolute (front ++ [component])) = component := by
  have member : component ∈ front ++ [component] := List.mem_append_right _ (List.mem_singleton_self _)
  exact base_of_ending (normal.free component member)
    (fun empty => normal.some_ component member (.inl empty)) (toList_ofComponents_concat absolute front component)

/-- All directories above a path and the path itself. -/
theorem ancestors_ofComponents (normal : Normal absolute components) :
    ancestors (ofComponents absolute components) =
      (List.range components.length).map fun i => ofComponents absolute (components.take (i + 1)) := by
  rw [ancestors, components_ofComponents normal, isAbsolute_ofComponents normal]

/-- A path below another one. -/
theorem join_below {root below : String} (isRoot : root ≠ "") (some_ : below ≠ "") :
    join [root, below] = clean (root ++ "/" ++ below) := by
  have spelled : Text.join "/" [root, below] = root ++ "/" ++ below := by
    simp [Text.join, String.append_assoc]
  have kept : [root, below].filter (· != "") = [root, below] := by simp [isRoot, some_]
  rw [join]
  simp only [kept, List.isEmpty_cons, Bool.false_eq_true, if_false, spelled]

/-- A path below the working directory. -/
theorem join_here {below : String} (some_ : below ≠ "") : join ["", below] = clean below := by
  have kept : ["", below].filter (· != "") = [below] := by simp [some_]
  rw [join]
  simp only [kept, List.isEmpty_cons, Bool.false_eq_true, if_false]
  rw [Text.join, String.intercalate_singleton]

/-- Joined paths are clean. -/
theorem clean_join (root : String) {below : String} (some_ : below ≠ "") :
    clean (join [root, below]) = join [root, below] := by
  rcases eq_or_ne root "" with rfl | isRoot
  · rw [join_here some_, clean_clean]
  · rw [join_below isRoot some_, clean_clean]

/-- A path below another one, through names. -/
theorem join_names {names : List String} (isNames : ∀ c ∈ names, IsEntryName c) (some_ : names ≠ [])
    {root : String} (isRoot : root ≠ "") :
    join [root, Text.join "/" names] = ofComponents (isAbsolute root) (Path.components root ++ names) := by
  have isWritten : written (Text.join "/" names) = names :=
    Text.split_join (fun c member => (isNames c member).free) some_
  have below : Text.join "/" names ≠ "" := by
    intro empty
    rw [empty] at isWritten
    have blank : "" ∈ names := isWritten ▸ by decide
    exact (isNames "" blank).some_ rfl
  have normal := (normal_components root).append isNames
  have same : isAbsolute (root ++ "/" ++ Text.join "/" names) = isAbsolute root := by
    rw [String.append_assoc, isAbsolute_append isRoot]
  have above : (written root).foldl (push (isAbsolute root)) [] = (Path.components root).reverse := by
    rw [Path.components, List.reverse_reverse]
  rw [join_below isRoot below, clean, Path.components, same, written_append, isWritten,
    List.foldl_append, above, foldl_push_normal _ _ (by rwa [List.reverse_reverse]), List.reverse_append, List.reverse_reverse,
    List.reverse_reverse]

/-! ### Goals -/

/-- Where one component leads. -/
def advance (here : List String) (component : String) : List String :=
  if component = "" ∨ component = "." then here
  else if component = ".." then here.dropLast
  else here ++ [component]

/-- Where components lead when nothing is in their way. -/
def goal (start components : List String) : List String :=
  components.foldl advance start

theorem advance_blank (here : List String) (blank : IsBlank component) :
    advance here component = here :=
  if_pos blank

theorem goal_append (start front back : List String) :
    goal start (front ++ back) = goal (goal start front) back :=
  List.foldl_append

theorem goal_blanks {blanks : List String} (blank : ∀ b ∈ blanks, IsBlank b) (start : List String) :
    goal start blanks = start := by
  induction blanks with
  | nil => rfl
  | cons b blanks ih =>
    obtain ⟨here, others⟩ := List.forall_mem_cons.mp blank
    rw [goal, List.foldl_cons, advance_blank _ here]
    exact ih others

theorem goal_names {names : List String} (isNames : ∀ c ∈ names, IsEntryName c) (start : List String) :
    goal start names = start ++ names := by
  induction names generalizing start with
  | nil => exact (List.append_nil _).symm
  | cons c names ih =>
    obtain ⟨here, others⟩ := List.forall_mem_cons.mp isNames
    have one : advance start c = start ++ [c] := by
      simp [advance, here.some_, here.here, here.parent]
    rw [goal, List.foldl_cons, one, List.append_cons start c names]
    exact ih others _

theorem goal_concat (start front : List String) (component : String) :
    goal start (front ++ [component]) = advance (goal start front) component :=
  goal_append start front [component]

/-- Pushing a component changes nothing about where the components lead. At the root there is nothing
to take back. -/
theorem goal_push {start reversed : List String} (normal : Normal absolute reversed.reverse)
    (fromRoot : absolute = true → start = []) :
    goal start (push absolute reversed component).reverse =
      advance (goal start reversed.reverse) component := by
  by_cases blank : IsBlank component
  · rw [push_blank _ blank, advance_blank _ blank]
  by_cases up : component = ".."
  · subst up
    cases reversed with
    | nil =>
      cases absolute with
      | true =>
        rw [fromRoot rfl]
        rfl
      | false => rfl
    | cons last before =>
      by_cases double : last = ".."
      · have pushed : push absolute (last :: before) ".." = ".." :: last :: before := by
          simp [push, double]
        rw [pushed, List.reverse_cons, goal_concat]
      · have pushed : push absolute (last :: before) ".." = before := by simp [push, double]
        rw [List.reverse_cons] at normal ⊢
        have isName : IsEntryName last :=
          (normal.each last (List.mem_append_right _ (List.mem_singleton_self _))).resolve_right
            fun other => double other.1
        have one : advance (goal start before.reverse) last = goal start before.reverse ++ [last] := by
          simp [advance, isName.some_, isName.here, double]
        rw [pushed, goal_concat, one]
        simp [advance]
  · have pushed : push absolute reversed component = component :: reversed := by
      unfold push
      rw [if_neg (by exact blank), if_neg up]
    rw [pushed, List.reverse_cons, goal_concat]

/-- **Cleaning a path** does not change where it leads. -/
theorem goal_components {path : String} {start : List String}
    (fromRoot : isAbsolute path = true → start = []) :
    goal start (Path.components path) = goal start (written path) := by
  have along : ∀ (comps reversed : List String), (∀ c ∈ comps, '/' ∉ c.toList) →
      Normal (isAbsolute path) reversed.reverse →
      goal start (comps.foldl (push (isAbsolute path)) reversed).reverse =
        goal start (reversed.reverse ++ comps) := by
    intro comps
    induction comps with
    | nil => exact fun reversed _ _ => by rw [List.append_nil]; rfl
    | cons c comps ih =>
      intro reversed free normal
      obtain ⟨here, others⟩ := List.forall_mem_cons.mp free
      rw [List.foldl_cons, ih _ others (normal_push normal here), goal_append,
        goal_push normal fromRoot, List.append_cons, goal_append, goal_concat]
  exact along (written path) [] (fun c member => Text.not_mem_of_mem_split member) .nil

end Forwarder.Path
