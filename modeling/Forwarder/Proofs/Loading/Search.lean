/-
**The search through supertypes visits everything that can be reached.**

The trace of visited types is shared by the whole search and nothing is taken off it, so the surface of
a type in the middle of the search need not be complete: it lists what is reached through the types
that were visited on its behalf. The invariant is about exactly those.

* `Scope.qualify_cases` — what a simple name stands for.
* `Library.Extends` — one type is declared with another as a supertype.
* `Library.Gathers` — what holds between two supertypes of one declaration.
* `Library.Searched` — what holds after a type was loaded: the types visited on its behalf are closed
  under `Extends`, and its surface lists all of their supertypes.
* **`Library.searched_loadWithin`** — loading keeps to it, whenever the bound exceeds the number of
  names that are still to be visited.
-/

import Mathlib.Logic.Relation
import Mathlib.Tactic.SplitIfs
import Forwarder.Loading.Closure
import Forwarder.Loading.Scope

namespace Forwarder

open Relation (ReflTransGen)
open Source

/-! ### First occurrences -/

theorem mem_firstOccurrences {name : String} {names : List String} :
    name ∈ firstOccurrences names ↔ name ∈ names := by
  induction names with
  | nil => exact Iff.rfl
  | cons first names ih =>
    rw [firstOccurrences, List.mem_cons, List.mem_cons, List.mem_filter, ih]
    constructor
    · exact Or.imp_right And.left
    · rintro (rfl | member)
      · exact .inl rfl
      · by_cases same : name = first
        · exact .inl same
        · exact .inr ⟨member, by simpa using same⟩

theorem nodup_firstOccurrences (names : List String) : (firstOccurrences names).Nodup := by
  induction names with
  | nil => exact List.nodup_nil
  | cons first names ih =>
    rw [firstOccurrences, List.nodup_cons]
    exact ⟨fun member => by simpa using (List.mem_filter.mp member).2, ih.filter _⟩

/-- A name that did not occur before is added at the end. -/
theorem firstOccurrences_concat {name : String} {names : List String} (fresh : name ∉ names) :
    firstOccurrences (names ++ [name]) = firstOccurrences names ++ [name] := by
  induction names with
  | nil => rfl
  | cons first names ih =>
    rw [List.mem_cons, not_or] at fresh
    rw [List.cons_append, firstOccurrences, ih fresh.2, firstOccurrences, List.filter_append,
      List.filter_cons_of_pos (by simpa using fresh.1), List.filter_nil, List.cons_append]

/-! ### Names -/

namespace Scope

/-- Simple names are looked for in the package: it is that of the file, if this has one, or it is imported as
a whole. -/
def LooksIn (s : Scope) (package : String) : Prop :=
  package = s.packageName ∧ package ≠ "" ∨ package ∈ s.onDemand

/-- **What a simple name stands for**: itself, a type of a package, or an imported type. -/
theorem qualify_cases (s : Scope) (lib : Library) (vars : List String) (simple : String) :
    s.qualify lib vars simple = simple ∨
      (∃ package, s.LooksIn package ∧ s.qualify lib vars simple = package ++ "." ++ simple) ∨
      s.imports.lookup simple = some (s.qualify lib vars simple) := by
  rw [qualify, reading]
  by_cases own : s.isOwnMeaning vars simple = true
  · rw [if_pos own]
    exact .inl rfl
  rw [if_neg own]
  by_cases self : simple = s.ownName
  · rw [if_pos self, inPackage]
    split_ifs with unnamed
    · exact .inl rfl
    · exact .inr (.inl ⟨s.packageName, .inl ⟨rfl, by simpa using unnamed⟩, rfl⟩)
  · rw [if_neg self]
    cases imported : s.imports.lookup simple with
    | some name => exact .inr (.inr rfl)
    | none =>
      dsimp only
      cases found : (((if s.packageName.isEmpty then [] else [s.packageName]) ++ s.onDemand).map
          (· ++ "." ++ simple)).find? lib.holds with
      | none => exact .inl rfl
      | some name =>
        obtain ⟨package, member, rfl⟩ := List.mem_map.mp (List.mem_of_find?_eq_some found)
        refine .inr (.inl ⟨package, ?_, rfl⟩)
        rcases List.mem_append.mp member with isOwn | onDemand
        · split_ifs at isOwn with unnamed
          · cases isOwn
          · rw [List.mem_singleton] at isOwn
            exact .inl ⟨isOwn, isOwn ▸ by simpa using unnamed⟩
        · exact .inr onDemand

end Scope

namespace Library

variable (lib : Library)

/-- The type `name` is declared with the supertype `super`. The root type does not count. -/
def Extends (name super : String) : Prop :=
  ∃ u decl, lib.declaration name = .ok (u, decl) ∧ ∃ ref ∈ decl.spec.supertypes,
    (Scope.of u decl).qualifySupertype lib ref.qualifiedName = super ∧ super ≠ rootType

/-- How many of the names have not been visited. -/
def unvisited (names : List String) (t : Trace) : Nat :=
  (names.filter fun name => !t.visited.contains name).length

/-! ### The invariants -/

/-- Supertypes have been gathered for a declaration, from the types known before. Its supertypes
that were looked at are those satisfying `direct`. -/
structure Gathers (known : List String) (direct : String → Prop) (g : Gathered) : Prop where
  grown : ∀ X ∈ known, X ∈ g.trace.visited
  closed : ∀ X ∈ g.trace.visited, X ∉ known → ∀ S, lib.Extends X S → S ∈ g.trace.visited
  named : ∀ S, direct S → S ∈ g.trace.visited
  reached : ∀ X ∈ g.trace.visited, X ∉ known → ∃ S, direct S ∧ ReflTransGen lib.Extends S X
  supertypes : ∀ S, S ∈ g.supertypes ↔
    direct S ∨ ∃ X ∈ g.trace.visited, X ∉ known ∧ lib.Extends X S

/-- A type was loaded, on a trace on which it was not visited. -/
structure Searched (name : String) (t : Trace) (outcome : Except Failure Surface × Trace) :
    Prop where
  grown : ∀ X ∈ t.visited, X ∈ outcome.2.visited
  self : name ∈ outcome.2.visited
  closed : ∀ X ∈ outcome.2.visited, X ∉ t.visited →
    ∀ S, lib.Extends X S → S ∈ outcome.2.visited
  reached : ∀ X ∈ outcome.2.visited, X ∉ t.visited → ReflTransGen lib.Extends name X
  result :
    match outcome.1 with
    | .error _ => (∀ p, lib.declaration name ≠ .ok p) ∧
        ∀ X ∈ outcome.2.visited, X ∉ t.visited → ∀ S, ¬lib.Extends X S
    | .ok s => (∃ p, lib.declaration name = .ok p) ∧
        (∀ S, S ∈ s.supertypes ↔
          S = rootType ∨ ∃ X ∈ outcome.2.visited, X ∉ t.visited ∧ lib.Extends X S) ∧
        s.supertypes.Nodup ∧ s.supertypes.getLast? = some rootType

variable {lib}

/-! ### One supertype -/

section Step

variable {known : List String} {direct : String → Prop} {g : Gathered} {load : LoadStep}
  {scope : Scope}

/-- What a supertype adds: nothing if it is the root type, its name if it was visited before or
cannot be loaded, and its name, supertypes and methods if it is loaded. -/
inductive Adds (lib : Library) (scope : Scope) (load : LoadStep) (g : Gathered) (ref : TypeRef)
    (name : String) (next : Gathered) : Prop
  | root (isRoot : name = rootType) (visited : next.trace.visited = g.trace.visited)
      (supertypes : next.supertypes = g.supertypes) (methods : next.methods = g.methods)
  | known (other : name ≠ rootType) (member : name ∈ g.trace.visited)
      (visited : next.trace.visited = g.trace.visited)
      (supertypes : next.supertypes = g.supertypes ++ [name]) (methods : next.methods = g.methods)
  | failed (other : name ≠ rootType) (fresh : name ∉ g.trace.visited) (t : Trace)
      (same : t.visited = g.trace.visited) (failure : Failure) (after : Trace)
      (loaded : load name t = (.error failure, after))
      (visited : next.trace.visited = after.visited)
      (supertypes : next.supertypes = g.supertypes ++ [name]) (methods : next.methods = g.methods)
  | loaded (other : name ≠ rootType) (fresh : name ∉ g.trace.visited) (t : Trace)
      (same : t.visited = g.trace.visited) (s : Surface) (after : Trace)
      (loaded : load name t = (.ok s, after))
      (visited : next.trace.visited = after.visited)
      (supertypes : next.supertypes =
        g.supertypes ++ [name] ++ s.supertypes.filter (· != rootType))
      (methods : next.methods = g.methods ++ s.inherited (scope.typeArguments lib ref))

theorem addSupertype_adds (lib : Library) (scope : Scope) (load : LoadStep) (g : Gathered)
    (ref : TypeRef) :
    Adds lib scope load g ref (scope.qualifySupertype lib ref.qualifiedName)
      (lib.addSupertype scope load g ref) := by
  rw [addSupertype]
  generalize scope.qualifySupertype lib ref.qualifiedName = name
  by_cases root : name = rootType
  · rw [if_pos root]
    exact .root root rfl rfl rfl
  rw [if_neg root]
  by_cases visited : g.trace.visited.contains name = true
  · rw [if_pos (by exact visited)]
    exact .known root (List.contains_iff_mem.mp visited) rfl rfl rfl
  have fresh : name ∉ g.trace.visited := fun member => visited (List.contains_iff_mem.mpr member)
  rw [if_neg (by exact visited)]
  split
  · next failure after loaded =>
    exact .failed root fresh (g.trace.ask (scope.searchedSupertype lib ref.qualifiedName)) rfl failure after loaded rfl rfl rfl
  · next s after loaded =>
    exact .loaded root fresh (g.trace.ask (scope.searchedSupertype lib ref.qualifiedName)) rfl s after loaded rfl rfl rfl

/-- The types visited since `known` were visited before a supertype was loaded or on its behalf. -/
theorem exists_since_iff {known before after : List String} {P : String → Prop}
    (first : ∀ X ∈ known, X ∈ before) (second : ∀ X ∈ before, X ∈ after) :
    (∃ X ∈ after, X ∉ known ∧ P X) ↔
      (∃ X ∈ before, X ∉ known ∧ P X) ∨ ∃ X ∈ after, X ∉ before ∧ P X := by
  constructor
  · rintro ⟨X, member, unknown, holds⟩
    by_cases old : X ∈ before
    · exact .inl ⟨X, old, unknown, holds⟩
    · exact .inr ⟨X, member, old, holds⟩
  · rintro (⟨X, old, unknown, holds⟩ | ⟨X, member, fresh, holds⟩)
    · exact ⟨X, second X old, unknown, holds⟩
    · exact ⟨X, member, fun isKnown => fresh (first X isKnown), holds⟩

/-- A loaded type continues the closedness of what was visited before it. -/
theorem Gathers.closed_loaded (gathers : lib.Gathers known direct g) {name : String}
    {t after : Trace} {result : Except Failure Surface} (same : t.visited = g.trace.visited)
    (searched : lib.Searched name t (result, after)) :
    ∀ X ∈ after.visited, X ∉ known → ∀ S, lib.Extends X S → S ∈ after.visited := by
  intro X member unknown S edge
  by_cases old : X ∈ g.trace.visited
  · exact searched.grown S (same ▸ gathers.closed X old unknown S edge)
  · exact searched.closed X member (same ▸ old) S edge

/-- What was visited so far is reached from the supertypes that were looked at, the loaded one
included. -/
theorem Gathers.reached_loaded (gathers : lib.Gathers known direct g) {name : String}
    {t after : Trace} {result : Except Failure Surface} (same : t.visited = g.trace.visited)
    (searched : lib.Searched name t (result, after)) :
    ∀ X ∈ after.visited, X ∉ known →
      ∃ S, (direct S ∨ S = name) ∧ ReflTransGen lib.Extends S X := by
  intro X member unknown
  by_cases old : X ∈ g.trace.visited
  · obtain ⟨S, isDirect, path⟩ := gathers.reached X old unknown
    exact ⟨S, .inl isDirect, path⟩
  · exact ⟨name, .inr rfl, searched.reached X member (same ▸ old)⟩

/-- **One more supertype.** Whatever `load` answers on a fresh name, the invariant goes on. -/
theorem Gathers.step (gathers : lib.Gathers known direct g) (ref : TypeRef)
    (loads : ∀ name t, name = scope.qualifySupertype lib ref.qualifiedName → name ≠ rootType →
      t.visited = g.trace.visited → name ∉ t.visited → lib.Searched name t (load name t)) :
    lib.Gathers known
      (fun S => direct S ∨ scope.qualifySupertype lib ref.qualifiedName = S ∧ S ≠ rootType)
      (lib.addSupertype scope load g ref) := by
  have adds := addSupertype_adds lib scope load g ref
  generalize scope.qualifySupertype lib ref.qualifiedName = name at loads adds ⊢
  have isDirect (other : name ≠ rootType) (S : String) :
      (direct S ∨ name = S ∧ S ≠ rootType) ↔ direct S ∨ S = name :=
    or_congr_right ⟨fun h => h.1.symm, fun h => ⟨h.symm, h ▸ other⟩⟩
  cases adds with
  | root isRoot visited supertypes methods =>
    have same (S : String) : (direct S ∨ name = S ∧ S ≠ rootType) ↔ direct S :=
      or_iff_left fun ⟨equal, other⟩ => other (equal ▸ isRoot)
    constructor <;> simp only [visited, supertypes, same]
    · exact gathers.grown
    · exact gathers.closed
    · exact gathers.named
    · exact gathers.reached
    · exact gathers.supertypes
  | known other member visited supertypes methods =>
    constructor <;> simp only [visited, supertypes, isDirect other]
    · exact gathers.grown
    · exact gathers.closed
    · rintro S (before | rfl)
      · exact gathers.named S before
      · exact member
    · intro X old unknown
      obtain ⟨S, direct, path⟩ := gathers.reached X old unknown
      exact ⟨S, .inl direct, path⟩
    · intro S
      rw [List.mem_append, List.mem_singleton, gathers.supertypes S]
      exact or_right_comm
  | failed other fresh t same failure after loaded visited supertypes methods =>
    have searched := loads name t rfl other same (same ▸ fresh)
    rw [loaded] at searched
    have grown : ∀ X ∈ g.trace.visited, X ∈ after.visited := same ▸ searched.grown
    constructor <;> simp only [visited, supertypes, isDirect other]
    · exact fun X old => grown X (gathers.grown X old)
    · exact gathers.closed_loaded same searched
    · rintro S (before | rfl)
      · exact grown S (gathers.named S before)
      · exact searched.self
    · exact gathers.reached_loaded same searched
    · intro S
      have nothing : ¬∃ X ∈ after.visited, X ∉ g.trace.visited ∧ lib.Extends X S :=
        fun ⟨X, member, new, edge⟩ => searched.result.2 X member (same ▸ new) S edge
      rw [exists_since_iff gathers.grown grown, or_iff_left nothing, List.mem_append,
        List.mem_singleton, gathers.supertypes S]
      exact or_right_comm
  | loaded other fresh t same s after loaded visited supertypes methods =>
    have searched := loads name t rfl other same (same ▸ fresh)
    rw [loaded] at searched
    have grown : ∀ X ∈ g.trace.visited, X ∈ after.visited := same ▸ searched.grown
    constructor <;> simp only [visited, supertypes, isDirect other]
    · exact fun X old => grown X (gathers.grown X old)
    · exact gathers.closed_loaded same searched
    · rintro S (before | rfl)
      · exact grown S (gathers.named S before)
      · exact searched.self
    · exact gathers.reached_loaded same searched
    · intro S
      have inherited : S ∈ s.supertypes.filter (· != rootType) ↔
          ∃ X ∈ after.visited, X ∉ g.trace.visited ∧ lib.Extends X S := by
        rw [List.mem_filter, searched.result.2.1 S, same]
        constructor
        · rintro ⟨rfl | edge, other⟩
          · simp at other
          · exact edge
        · rintro ⟨X, member, new, edge⟩
          obtain ⟨_, _, _, _, _, _, notRoot⟩ := id edge
          exact ⟨.inr ⟨X, member, new, edge⟩, by simpa using notRoot⟩
      rw [exists_since_iff gathers.grown grown, List.mem_append, List.mem_append,
        List.mem_singleton, inherited, gathers.supertypes S]
      simp only [or_assoc, or_left_comm]

end Step

/-! ### All supertypes of a declaration -/

/-- **The supertypes of a declaration, one after the other.** Loading one of them may rely on what was
visited before. -/
theorem Gathers.fold {known : List String} {scope : Scope} (load : LoadStep) (refs : List TypeRef)
    (loads : ∀ ref ∈ refs, ∀ name t, name = scope.qualifySupertype lib ref.qualifiedName →
      name ≠ rootType → (∀ X ∈ known, X ∈ t.visited) → name ∉ t.visited →
      lib.Searched name t (load name t)) :
    ∀ (direct : String → Prop) (g : Gathered), lib.Gathers known direct g →
      lib.Gathers known
        (fun S => direct S ∨ ∃ ref ∈ refs,
          scope.qualifySupertype lib ref.qualifiedName = S ∧ S ≠ rootType)
        (refs.foldl (lib.addSupertype scope load) g) := by
  induction refs with
  | nil =>
    intro direct g gathers
    simpa using gathers
  | cons ref refs ih =>
    intro direct g gathers
    have one := gathers.step ref fun name t isName other same fresh =>
      loads ref List.mem_cons_self name t isName other
        (fun X old => same ▸ gathers.grown X old) fresh
    have others := ih (fun ref member => loads ref (List.mem_cons_of_mem _ member)) _ _ one
    simpa [or_assoc] using others

/-- The supertypes of a surface: those gathered for the declaration, and the root type at the end. -/
theorem surfaceOf_supertypes {load : LoadStep} {name : String} {u : CompilationUnit}
    {decl : TypeDecl} {t : Trace} (declared : lib.declaration name = .ok (u, decl))
    (loads : ∀ S t', lib.Extends name S → (∀ X ∈ t.visited, X ∈ t'.visited) → S ∉ t'.visited →
      lib.Searched S t' (load S t')) :
    let (s, after) := lib.surfaceOf load name u decl t
    lib.Gathers t.visited (lib.Extends name) ⟨s.supertypes.dropLast, s.methods, after⟩ ∧
      s.supertypes.Nodup ∧ s.supertypes.getLast? = some rootType := by
  have start : lib.Gathers t.visited (fun _ => False) ⟨[], decl.spec.methods.map
      ((Scope.of u decl).method lib name), t.ask (lib.searchedOwn (Scope.of u decl) decl.spec)⟩ :=
    ⟨fun X old => old, fun X old new => absurd old new, fun _ none => none.elim,
      fun X old new => absurd old new, fun S => ⟨fun member => absurd member List.not_mem_nil, fun h => by
        obtain ⟨X, old, new, _⟩ := h.resolve_left id
        exact absurd old new⟩⟩
  have gathers := start.fold load decl.spec.supertypes
    fun ref member S t' isName other grown fresh =>
      loads S t' ⟨u, decl, declared, ref, member, isName.symm, other⟩ grown fresh
  have direct (S : String) : (False ∨ ∃ ref ∈ decl.spec.supertypes,
      (Scope.of u decl).qualifySupertype lib ref.qualifiedName = S ∧ S ≠ rootType) ↔
        lib.Extends name S := by
    rw [false_or]
    constructor
    · exact fun ⟨ref, member, isName, other⟩ => ⟨u, decl, declared, ref, member, isName, other⟩
    · rintro ⟨u', decl', same, ref, member, isName, other⟩
      obtain ⟨rfl, rfl⟩ := Prod.mk.inj (Except.ok.inj (declared.symm.trans same))
      exact ⟨ref, member, isName, other⟩
  rw [funext fun S => propext (direct S)] at gathers
  simp only [surfaceOf]
  generalize decl.spec.supertypes.foldl _ _ = g at gathers ⊢
  have noRoot : rootType ∉ g.supertypes := by
    intro member
    rcases (gathers.supertypes rootType).mp member with edge | ⟨_, _, _, edge⟩
    all_goals
      obtain ⟨_, _, _, _, _, _, other⟩ := edge
      exact other rfl
  rw [firstOccurrences_concat noRoot, List.dropLast_concat]
  refine ⟨⟨gathers.grown, gathers.closed, gathers.named, gathers.reached, fun S => ?_⟩, ?_,
    List.getLast?_concat⟩
  · rw [mem_firstOccurrences]
    exact gathers.supertypes S
  · rw [← firstOccurrences_concat noRoot]
    exact nodup_firstOccurrences _

/-! ### The whole search -/

section Bound

variable {names : List String} {t after : Trace} {name : String}

/-- Visiting a name that counts leaves fewer of them. -/
theorem unvisited_visit_lt (member : name ∈ names) (fresh : name ∉ t.visited) :
    unvisited names (t.visit name) < unvisited names t := by
  unfold unvisited
  have split : (fun n => !(t.visit name).visited.contains n) =
      fun n => n != name && !t.visited.contains n := by
    funext n
    by_cases same : n = name <;> simp [Trace.visit, same]
  rw [split, ← List.filter_filter]
  refine List.length_filter_lt_length_iff_exists.mpr ⟨name, ?_, by simp⟩
  exact List.mem_filter.mpr ⟨member, by simpa using fresh⟩

/-- The more was visited, the less is left. -/
theorem unvisited_le (names : List String) (grown : ∀ X ∈ t.visited, X ∈ after.visited) :
    unvisited names after ≤ unvisited names t := by
  rw [unvisited, unvisited, ← List.countP_eq_length_filter, ← List.countP_eq_length_filter]
  refine List.countP_mono_left fun n _ unknown => ?_
  simp only [Bool.not_eq_true', List.contains_eq_mem, decide_eq_false_iff_not] at unknown ⊢
  exact fun old => unknown (grown n old)

end Bound

/-- **The search is exact.** If all supertypes are among `names`, and the bound exceeds the number of
those that are still to be visited, then loading a fresh name visits what it leads to and answers its
supertypes. -/
theorem searched_loadWithin {names : List String} (all : ∀ X S, lib.Extends X S → S ∈ names) :
    ∀ (bound : Nat) (name : String) (t : Trace), name ∉ t.visited →
      unvisited names (t.visit name) < bound → lib.Searched name t (lib.loadWithin bound name t)
  | 0, _, _, _, small => absurd small (Nat.not_lt_zero _)
  | bound + 1, name, t, fresh, small => by
    have old {X : String} (member : X ∈ t.visited) : X ∈ (t.visit name).visited :=
      List.mem_cons_of_mem _ member
    have here : name ∈ (t.visit name).visited := List.mem_cons_self
    rw [loadWithin]
    cases declared : lib.declaration name with
    | error failure =>
      have noEdge (S : String) : ¬lib.Extends name S := by
        rintro ⟨_, _, same, _⟩
        rw [declared] at same
        cases same
      have only : ∀ X ∈ (t.visit name).visited, X ∉ t.visited → X = name := fun X member new =>
        (List.mem_cons.mp member).resolve_right new
      refine ⟨fun X => old, here, fun X member new S edge => ?_, fun X member new => ?_, ?_,
        fun X member new S edge => ?_⟩
      · exact absurd (only X member new ▸ edge) (noEdge S)
      · rw [only X member new]
      · intro p same
        rw [declared] at same
        cases same
      · exact noEdge S (only X member new ▸ edge)
    | ok p =>
      obtain ⟨u, decl⟩ := p
      have loads : ∀ S t', lib.Extends name S → (∀ X ∈ (t.visit name).visited, X ∈ t'.visited) →
          S ∉ t'.visited → lib.Searched S t' (lib.loadWithin bound S t') := by
        intro S t' edge grown new
        refine searched_loadWithin all bound S t' new ?_
        have fewer := unvisited_visit_lt (all name S edge) new
        have less := unvisited_le names grown
        omega
      have gathers := surfaceOf_supertypes declared loads
      simp only
      generalize lib.surfaceOf (lib.loadWithin bound) name u decl (t.visit name) = outcome at gathers ⊢
      obtain ⟨s, after⟩ := outcome
      obtain ⟨gathers, nodup, last⟩ := gathers
      refine ⟨fun X member => gathers.grown X (old member), gathers.grown name here,
        fun X member new S edge => ?_, fun X member new => ?_, ⟨_, declared⟩, fun S => ?_, nodup, last⟩
      · by_cases same : X = name
        · exact gathers.named S (same ▸ edge)
        · exact gathers.closed X member (fun was => (List.mem_cons.mp was).elim same new) S edge
      · by_cases same : X = name
        · rw [same]
        · obtain ⟨S, edge, path⟩ := gathers.reached X member fun was =>
            (List.mem_cons.mp was).elim same new
          exact path.head edge
      · have ends : s.supertypes = s.supertypes.dropLast ++ [rootType] := by
          obtain ⟨front, isFront⟩ := List.getLast?_eq_some_iff.mp last
          rw [isFront, List.dropLast_concat]
        rw [ends, List.mem_append, List.mem_singleton, or_comm]
        refine or_congr_right ((gathers.supertypes S).trans ?_)
        constructor
        · rintro (edge | ⟨X, member, new, edge⟩)
          · exact ⟨name, gathers.grown name here, fresh, edge⟩
          · exact ⟨X, member, fun was => new (old was), edge⟩
        · rintro ⟨X, member, new, edge⟩
          by_cases same : X = name
          · exact .inl (same ▸ edge)
          · exact .inr ⟨X, member, fun was => (List.mem_cons.mp was).elim same new, edge⟩

end Library

end Forwarder
