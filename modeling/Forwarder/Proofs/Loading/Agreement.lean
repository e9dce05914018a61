/-
**Libraries that agree load the same.** What a library answers about places and declarations decides what
is loaded, and only the names that can be asked for on the way count. The bound on the depth of the search
does not, once it is large enough.

* `Library.AgreeOn` — two libraries find the same places and declarations of some names.
* `Library.Closed` — loading one of the names asks for no others.
* `Library.AgreeOn.loadWithin` — under one bound the two load the same.
* `Library.loadWithin_add`, `Library.tourWithin_add` — a bound that exceeds what is still to be visited may as
  well be larger.
* `Library.IsBase.loadWithin` — for a type without supertypes any bound will do.
* **`Library.AgreeOn.loadWithin_eq`** — under two such bounds they load the same.
* `SourceLoader.load_of_closed`, `SourceLoader.tour_of_closed` — names that are closed under supertypes give such
  a bound.
-/

import Mathlib.Data.List.Find
import Forwarder.Proofs.Loading.Texts
import Forwarder.Proofs.Loading.Tour

namespace Forwarder

open Source

theorem triedUntil_congr {test other : String → Bool} {names : List String}
    (same : ∀ name ∈ names, test name = other name) :
    triedUntil test names = triedUntil other names := by
  induction names with
  | nil => rfl
  | cons name names ih =>
    obtain ⟨first, others⟩ := List.forall_mem_cons.mp same
    rw [triedUntil, triedUntil, first, ih others]

namespace Library

variable {lib other : Library} {bound : Nat} {name : String} {t : Trace} {names : List String}
  {inside : String → Prop}

/-- The two libraries find the same places and the same declarations of the names. -/
structure AgreeOn (inside : String → Prop) (lib other : Library) : Prop where
  locate : ∀ name, inside name → lib.locate name = other.locate name
  declaration : ∀ name, inside name → lib.declaration name = other.declaration name

/-- The names in the declaration of one of them are read as others of them. -/
structure Closed (inside : String → Prop) (lib : Library) : Prop where
  candidates : ∀ X u decl, inside X → lib.declaration X = .ok (u, decl) → ∀ vars simple candidates,
    (Scope.of u decl).reading vars simple = .firstOf candidates → ∀ name ∈ candidates, inside name
  supertypes : ∀ X S, inside X → lib.Extends X S → inside S

/-- What can be reached from one of the names is another one. -/
theorem Closed.reached (closed : Closed inside lib) (within : inside name) {X : String}
    (reached : Relation.ReflTransGen lib.Extends name X) : inside X := by
  induction reached with
  | refl => exact within
  | tail _ edge ih => exact closed.supertypes _ _ ih edge

/-- The places decide how names are qualified. -/
theorem surfaceOf_congr {u : CompilationUnit} {decl : TypeDecl}
    (same : ∀ vars simple candidates, (Scope.of u decl).reading vars simple = .firstOf candidates →
      ∀ name ∈ candidates, lib.locate name = other.locate name)
    (load : LoadStep) (name : String) (t : Trace) :
    lib.surfaceOf load name u decl t = other.surfaceOf load name u decl t := by
  have holds : ∀ vars simple candidates, (Scope.of u decl).reading vars simple = .firstOf candidates →
      ∀ name ∈ candidates, lib.holds name = other.holds name := by
    intro vars simple candidates isReading name member
    rw [Library.holds, Library.holds, same vars simple candidates isReading name member]
  have qualify : (Scope.of u decl).qualify lib = (Scope.of u decl).qualify other := by
    funext vars simple
    rw [Scope.qualify, Scope.qualify]
    cases isReading : (Scope.of u decl).reading vars simple with
    | fixed name => rfl
    | firstOf candidates =>
      dsimp only
      rw [List.find?_congr (holds vars simple candidates isReading)]
  have searched : (Scope.of u decl).searched lib = (Scope.of u decl).searched other := by
    funext vars simple
    rw [Scope.searched, Scope.searched]
    cases isReading : (Scope.of u decl).reading vars simple with
    | fixed name => rfl
    | firstOf candidates => exact triedUntil_congr (holds vars simple candidates isReading)
  have within : (Scope.of u decl).searchedIn lib = (Scope.of u decl).searchedIn other := by
    funext vars type
    simp only [Scope.searchedIn, searched]
  have adds : lib.addSupertype (Scope.of u decl) load = other.addSupertype (Scope.of u decl) load := by
    funext g ref
    simp only [addSupertype, Scope.qualifySupertype, Scope.searchedSupertype, Scope.typeArguments,
      Scope.qualifyType, qualify, searched, within]
  have methods : (Scope.of u decl).method lib name = (Scope.of u decl).method other name := by
    funext m
    simp only [Scope.method, Scope.qualifyType, qualify]
  have asked : (Scope.of u decl).searchedMethod lib = (Scope.of u decl).searchedMethod other := by
    funext m
    simp only [Scope.searchedMethod, within]
  simp only [surfaceOf, searchedOwn, adds, methods, asked, within, Scope.qualifyType, qualify]

/-! ### The bound -/

/-- Nothing is taken off the trace. -/
theorem grown_loadWithin (lib : Library) (bound : Nat) (name : String) (t : Trace) :
    ∀ X ∈ t.visited, X ∈ (lib.loadWithin bound name t).2.visited := by
  rw [visited_loadWithin]
  exact (covers_tourWithin lib bound name t.visited).grown

/-- A supertype adds the same if it is loaded in the same way when it is visited for the first time. -/
theorem addSupertype_congr (lib : Library) (scope : Scope) {load load' : LoadStep} {g : Gathered}
    {ref : TypeRef}
    (same : ∀ t, scope.qualifySupertype lib ref.qualifiedName ≠ rootType →
      scope.qualifySupertype lib ref.qualifiedName ∉ g.trace.visited → t.visited = g.trace.visited →
      load (scope.qualifySupertype lib ref.qualifiedName) t =
        load' (scope.qualifySupertype lib ref.qualifiedName) t) :
    lib.addSupertype scope load g ref = lib.addSupertype scope load' g ref := by
  rw [addSupertype, addSupertype]
  by_cases root : scope.qualifySupertype lib ref.qualifiedName = rootType
  · rw [if_pos root, if_pos root]
  rw [if_neg root, if_neg root]
  by_cases visited : scope.qualifySupertype lib ref.qualifiedName ∈ g.trace.visited
  · have isVisited := List.contains_iff_mem.mpr visited
    rw [if_pos (by exact isVisited), if_pos (by exact isVisited)]
  · dsimp only
    rw [same (g.trace.ask (scope.searchedSupertype lib ref.qualifiedName)) root visited rfl]

/-- Adding a supertype takes nothing off the trace, if loading takes nothing off it. -/
theorem grown_addSupertype (lib : Library) (scope : Scope) {load : LoadStep}
    (grows : ∀ name t, ∀ X ∈ t.visited, X ∈ (load name t).2.visited) (g : Gathered) (ref : TypeRef) :
    ∀ X ∈ g.trace.visited, X ∈ (lib.addSupertype scope load g ref).trace.visited := by
  intro X isKnown
  cases addSupertype_adds lib scope load g ref with
  | root _ visited _ _ => exact visited ▸ isKnown
  | known _ _ visited _ _ => exact visited ▸ isKnown
  | failed _ _ t same failure after loaded visited _ _ =>
    have grown := grows (scope.qualifySupertype lib ref.qualifiedName) t X (same ▸ isKnown)
    rw [loaded] at grown
    exact visited ▸ grown
  | loaded _ _ t same s after loaded visited _ _ =>
    have grown := grows (scope.qualifySupertype lib ref.qualifiedName) t X (same ▸ isKnown)
    rw [loaded] at grown
    exact visited ▸ grown

/-- All supertypes of a declaration, on traces that go on from some known types. -/
theorem foldl_addSupertype_congr (lib : Library) (scope : Scope) {load load' : LoadStep}
    (known : List String) (grows : ∀ name t, ∀ X ∈ t.visited, X ∈ (load name t).2.visited)
    (refs : List TypeRef)
    (same : ∀ ref ∈ refs, ∀ t, scope.qualifySupertype lib ref.qualifiedName ≠ rootType →
      scope.qualifySupertype lib ref.qualifiedName ∉ t.visited → (∀ X ∈ known, X ∈ t.visited) →
      load (scope.qualifySupertype lib ref.qualifiedName) t =
        load' (scope.qualifySupertype lib ref.qualifiedName) t) :
    ∀ g : Gathered, (∀ X ∈ known, X ∈ g.trace.visited) →
      refs.foldl (lib.addSupertype scope load) g = refs.foldl (lib.addSupertype scope load') g := by
  induction refs with
  | nil => exact fun _ _ => rfl
  | cons ref refs ih =>
    intro g grown
    rw [List.foldl_cons, List.foldl_cons,
      ← addSupertype_congr lib scope fun t other fresh visited =>
        same ref List.mem_cons_self t other (visited ▸ fresh) (visited ▸ grown)]
    exact ih (fun other member => same other (List.mem_cons_of_mem _ member)) _
      fun X isKnown => grown_addSupertype lib scope grows g ref X (grown X isKnown)

/-- **A larger bound** makes no difference, where the bound exceeds what is still to be visited. -/
theorem loadWithin_add (all : ∀ X S, inside X → lib.Extends X S → inside S ∧ S ∈ names) (more : Nat) :
    ∀ (bound : Nat) (name : String) (t : Trace), inside name → unvisited names (t.visit name) < bound →
      lib.loadWithin (bound + more) name t = lib.loadWithin bound name t
  | 0, _, _, _, small => absurd small (Nat.not_lt_zero _)
  | bound + 1, name, t, within, small => by
    rw [Nat.add_right_comm, loadWithin, loadWithin]
    cases declared : lib.declaration name with
    | error failure => rfl
    | ok p =>
      obtain ⟨u, decl⟩ := p
      dsimp only
      rw [surfaceOf, surfaceOf, foldl_addSupertype_congr lib (Scope.of u decl) (t.visit name).visited
        (grown_loadWithin lib (bound + more)) decl.spec.supertypes ?_ _ fun X isKnown => isKnown]
      intro ref member t' other fresh grown
      obtain ⟨within', listed⟩ := all name _ within ⟨u, decl, declared, ref, member, rfl, other⟩
      have fewer := unvisited_visit_lt listed fresh
      have less := unvisited_le names grown
      exact loadWithin_add all more bound _ t' within' (by omega)

/-- All supertypes of a declaration, on tours that go on from some known types. -/
theorem foldl_tourSupertype_congr (lib : Library) (scope : Scope) {tour tour' : String → List String → Tour}
    (known : List String) (grows : ∀ name visited, ∀ X ∈ visited, X ∈ (tour name visited).visited)
    (refs : List TypeRef)
    (same : ∀ ref ∈ refs, ∀ visited, scope.qualifySupertype lib ref.qualifiedName ≠ rootType →
      scope.qualifySupertype lib ref.qualifiedName ∉ visited → (∀ X ∈ known, X ∈ visited) →
      tour (scope.qualifySupertype lib ref.qualifiedName) visited =
        tour' (scope.qualifySupertype lib ref.qualifiedName) visited) :
    ∀ g : Tour, (∀ X ∈ known, X ∈ g.visited) →
      refs.foldl (lib.tourSupertype scope tour) g = refs.foldl (lib.tourSupertype scope tour') g := by
  induction refs with
  | nil => exact fun _ _ => rfl
  | cons ref refs ih =>
    intro g grown
    obtain ⟨here, later⟩ := List.forall_mem_cons.mp same
    have first : lib.tourSupertype scope tour g ref = lib.tourSupertype scope tour' g ref := by
      unfold tourSupertype
      dsimp only
      split
      · rfl
      · next new =>
        obtain ⟨other, fresh⟩ := not_or.mp new
        rw [here g.visited other fresh grown]
    rw [List.foldl_cons, List.foldl_cons, ← first]
    refine ih later _ fun X isKnown => ?_
    unfold tourSupertype
    dsimp only
    split
    · exact grown X isKnown
    · exact grows _ _ X (grown X isKnown)

/-- The same for tours. -/
theorem tourWithin_add (all : ∀ X S, inside X → lib.Extends X S → inside S ∧ S ∈ names) (more : Nat) :
    ∀ (bound : Nat) (name : String) (t : Trace), inside name → unvisited names (t.visit name) < bound →
      lib.tourWithin (bound + more) name t.visited = lib.tourWithin bound name t.visited
  | 0, _, _, _, small => absurd small (Nat.not_lt_zero _)
  | bound + 1, name, t, within, small => by
    rw [Nat.add_right_comm, tourWithin, tourWithin]
    cases declared : lib.declaration name with
    | error failure => rfl
    | ok p =>
      obtain ⟨u, decl⟩ := p
      dsimp only
      rw [foldl_tourSupertype_congr lib (Scope.of u decl) (name :: t.visited)
        (fun _ _ => (covers_tourWithin lib (bound + more) _ _).grown) decl.spec.supertypes ?_ _
        fun X isKnown => isKnown]
      intro ref member visited other fresh grown
      obtain ⟨within', listed⟩ := all name _ within ⟨u, decl, declared, ref, member, rfl, other⟩
      have fewer := unvisited_visit_lt (t := ⟨visited, []⟩) listed fresh
      have less : unvisited names ⟨visited, []⟩ ≤ unvisited names (t.visit name) := unvisited_le names grown
      exact tourWithin_add all more bound _ ⟨visited, []⟩ within' (by omega)

/-- The type has no supertypes, if it is declared. -/
def IsBase (lib : Library) (name : String) : Prop :=
  ∀ p ∈ (lib.declaration name).toOption, p.2.spec.supertypes = []

instance (lib : Library) (name : String) : Decidable (lib.IsBase name) :=
  inferInstanceAs (Decidable (∀ p ∈ (lib.declaration name).toOption, p.2.spec.supertypes = []))

theorem isBase_of_undeclared {failure : Failure} (undeclared : lib.declaration name = .error failure) :
    lib.IsBase name := by
  intro p declared
  rw [undeclared] at declared
  cases declared

/-- A type without supertypes needs no more than to be open itself. -/
theorem IsBase.loadWithin (base : lib.IsBase name) (bound : Nat) (t : Trace) :
    lib.loadWithin (bound + 1) name t = lib.loadWithin 1 name t := by
  rw [Library.loadWithin, Library.loadWithin]
  cases declared : lib.declaration name with
  | error failure => rfl
  | ok p =>
    have none_ : p.2.spec.supertypes = [] := base p (by rw [declared]; rfl)
    dsimp only
    rw [surfaceOf, surfaceOf, none_]
    rfl

/-- **Under one bound** the same is loaded. -/
theorem AgreeOn.loadWithin (agree : AgreeOn inside lib other) (closed : Closed inside lib)
    (bound : Nat) : ∀ (name : String) (t : Trace), inside name →
      lib.loadWithin bound name t = other.loadWithin bound name t := by
  induction bound with
  | zero => exact fun _ _ _ => rfl
  | succ bound ih =>
    intro name t within
    rw [Library.loadWithin, Library.loadWithin, ← agree.declaration name within]
    cases declared : lib.declaration name with
    | error failure => rfl
    | ok p =>
      obtain ⟨u, decl⟩ := p
      dsimp only
      rw [← surfaceOf_congr (fun vars simple candidates isReading candidate member =>
        agree.locate candidate
          (closed.candidates name u decl within declared vars simple candidates isReading candidate member)),
        surfaceOf, surfaceOf, foldl_addSupertype_congr lib (Scope.of u decl) []
          (grown_loadWithin lib bound) decl.spec.supertypes ?_ _ (List.forall_mem_nil _)]
      intro ref member t' notRoot _ _
      exact ih _ t' (closed.supertypes name _ within ⟨u, decl, declared, ref, member, rfl, notRoot⟩)

/-- **Under two bounds**, each of which exceeds all that there is to visit, the same is loaded. -/
theorem AgreeOn.loadWithin_eq (agree : AgreeOn inside lib other) (closed : Closed inside lib)
    {names names' : List String} (all : ∀ X S, lib.Extends X S → S ∈ names)
    (all' : ∀ X S, other.Extends X S → S ∈ names') {bound bound' : Nat} (enough : names.length < bound)
    (enough' : names'.length < bound') {name : String} (within : inside name) (t : Trace) :
    lib.loadWithin bound name t = other.loadWithin bound' name t := by
  have small (names : List String) : unvisited names (t.visit name) ≤ names.length :=
    List.length_filter_le _ _
  have anywhere X S (_ : True) (edge : lib.Extends X S) : True ∧ S ∈ names := ⟨trivial, all X S edge⟩
  have anywhere' X S (_ : True) (edge : other.Extends X S) : True ∧ S ∈ names' := ⟨trivial, all' X S edge⟩
  have first := loadWithin_add anywhere bound' bound name t trivial (Nat.lt_of_le_of_lt (small names) enough)
  have second := loadWithin_add anywhere' bound bound' name t trivial (Nat.lt_of_le_of_lt (small names') enough')
  rw [← first, ← second, agree.loadWithin closed _ name t within, Nat.add_comm]

end Library

namespace SourceLoader

variable {l : SourceLoader} {d : Disk} {name : String} {names : List String}

theorem unvisited_start_lt (member : name ∈ names) :
    Library.unvisited names (Trace.start.visit name) < names.length :=
  Nat.lt_of_lt_of_le (Library.unvisited_visit_lt member List.not_mem_nil) (List.length_filter_le _ _)

theorem extends_namesIn (l : SourceLoader) (d : Disk) (X S : String) (_ : True)
    (edge : (l.library d).Extends X S) : True ∧ S ∈ l.namesIn d :=
  ⟨trivial, mem_namesIn_of_extends edge⟩

section Closed

variable (closed : ∀ X ∈ names, ∀ S ∈ (l.library d).supertypesOf X, S ∈ names) (member : name ∈ names)
  {size : Nat} (isSize : names.length = size)

include closed

theorem extends_of_closed (X S : String) (isName : X ∈ names) (edge : (l.library d).Extends X S) :
    S ∈ names ∧ S ∈ names :=
  and_self_iff.mpr (closed X isName S (Library.extends_iff.mp edge))

include member isSize

/-- **A load needs no larger bound than there are names** in a list that is closed under supertypes. -/
theorem loadWithin_of_closed : (l.library d).loadWithin (l.bound d) name .start =
    (l.library d).loadWithin size name .start := by
  -- Both bounds come to the same as their sum.
  rw [← Library.loadWithin_add (extends_namesIn l d) size _ _ _ trivial (l.unvisited_start_lt_bound d name),
    Nat.add_comm, Library.loadWithin_add (extends_of_closed closed) _ _ _ _ member
      (isSize ▸ unvisited_start_lt member)]

theorem load_of_closed : (l.load d name).1 = ((l.library d).loadWithin size name .start).1 :=
  congrArg Prod.fst (loadWithin_of_closed closed member isSize)

theorem tour_of_closed : l.tour d name = (l.library d).tourWithin size name [] := by
  show (l.library d).tourWithin (l.bound d) name Trace.start.visited = _
  rw [← Library.tourWithin_add (extends_namesIn l d) size _ _ _ trivial (l.unvisited_start_lt_bound d name),
    Nat.add_comm, Library.tourWithin_add (extends_of_closed closed) _ _ _ _ member
      (isSize ▸ unvisited_start_lt member)]
  rfl

end Closed

end SourceLoader

end Forwarder
