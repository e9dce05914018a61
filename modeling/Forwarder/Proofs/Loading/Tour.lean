/-
**What a search meets.** Loading a type goes through the types that it can reach and puts together what
they declare; of several methods with one key only the first is kept, again and again on the way up.
The tour of a search is everything it meets, in that order, with nothing left out.

* `Library.tourWithin` — the methods that a search meets, with the type arguments of the way to them.
* `Library.Sees` — a method that a type declares or inherits, along any way.
* `Library.Keeps` — what a relation between kept methods and met ones has to be closed under.
* **`Library.Keeps.loadWithin`** — such a relation holds between the surface of a type and its tour.
* `Library.covers_tourWithin` — every method that a visited type declares is met.
* `SourceLoader.tour`, `SourceLoader.met_of_reached` — the tour of one load meets all that can be reached.
-/

import Forwarder.Proofs.Loading.Reach
import Forwarder.Proofs.Method

namespace Forwarder

open Relation (ReflTransGen)
open Source

/-! ### Tours -/

/-- The methods that were met, and the types that were visited, the last one first. -/
structure Tour where
  methods : List Method
  visited : List String

namespace Library

variable (lib : Library)

/-- The type parameters of a type, if it has a declaration. -/
def typeParamsOf (name : String) : List String :=
  match lib.declaration name with
  | .error _ => []
  | .ok (u, decl) =>
    decl.spec.header.typeParams.map fun p => (Scope.of u decl).qualifyType lib [] p.render

/-- What stands for the type parameters of a supertype. -/
def argumentsFor (scope : Scope) (ref : TypeRef) : TypeName.Substitution :=
  let super := scope.qualifySupertype lib ref.qualifiedName
  .ofArguments (TypeName.typeParamNames (lib.typeParamsOf super)) (scope.typeArguments lib ref) []

/-- The way through a supertype, unless it is the root type or was visited before. -/
def tourSupertype (scope : Scope) (tour : String → List String → Tour) (g : Tour) (ref : TypeRef) :
    Tour :=
  let super := scope.qualifySupertype lib ref.qualifiedName
  if super = rootType ∨ super ∈ g.visited then g
  else
    let inner := tour super g.visited
    ⟨g.methods ++ inner.methods.map (·.substituted (lib.argumentsFor scope ref)), inner.visited⟩

/-- The tour of a type: its own methods, what is met through each of its supertypes, and for a class
those of the root type. At most `bound` types are open at a time. -/
def tourWithin : Nat → String → List String → Tour
  | 0, _, visited => ⟨[], visited⟩
  | bound + 1, name, visited =>
    match lib.declaration name with
    | .error _ => ⟨[], name :: visited⟩
    | .ok (u, decl) =>
      let scope := Scope.of u decl
      let start : Tour := ⟨decl.spec.methods.map (scope.method lib name), name :: visited⟩
      let g := decl.spec.supertypes.foldl (lib.tourSupertype scope (tourWithin bound)) start
      ⟨g.methods ++ (if scope.inInterface then [] else rootMethods), g.visited⟩

/-- The method is declared by the type, or by one that it inherits from along some way, whose type
arguments are put in. -/
inductive Sees : String → Method → Prop
  | own {X : String} {u : CompilationUnit} {decl : TypeDecl} {member : MethodMember}
      (declared : lib.declaration X = .ok (u, decl)) (isMethod : member ∈ decl.spec.methods) :
      Sees X ((Scope.of u decl).method lib X member)
  | rooted {X : String} {u : CompilationUnit} {decl : TypeDecl} {m : Method}
      (declared : lib.declaration X = .ok (u, decl))
      (isClass : (Scope.of u decl).inInterface = false) (isRoot : m ∈ rootMethods) : Sees X m
  | inherited {X : String} {u : CompilationUnit} {decl : TypeDecl} {ref : TypeRef} {m : Method}
      (declared : lib.declaration X = .ok (u, decl)) (isSuper : ref ∈ decl.spec.supertypes)
      (other : (Scope.of u decl).qualifySupertype lib ref.qualifiedName ≠ rootType)
      (seen : Sees ((Scope.of u decl).qualifySupertype lib ref.qualifiedName) m) :
      Sees X (m.substituted (lib.argumentsFor (Scope.of u decl) ref))

/-! ### Kept methods and met ones -/

/-- A relation between the methods kept for a type and those met for it goes along with everything that
loading does to either, within a set of types. -/
structure Keeps (inside : String → Prop) (R : String → List Method → List Method → Prop) : Prop where
  closed : ∀ X S, inside X → lib.Extends X S → inside S
  own : ∀ X u decl, inside X → lib.declaration X = .ok (u, decl) →
    R X (decl.spec.methods.map ((Scope.of u decl).method lib X))
      (decl.spec.methods.map ((Scope.of u decl).method lib X))
  rooted : ∀ X u decl, inside X → lib.declaration X = .ok (u, decl) →
    (Scope.of u decl).inInterface = false → R X rootMethods rootMethods
  append : ∀ X kept met kept' met', R X kept met → R X kept' met' → R X (kept ++ kept') (met ++ met')
  inherited : ∀ X u decl, inside X → lib.declaration X = .ok (u, decl) →
    ∀ ref ∈ decl.spec.supertypes,
      (Scope.of u decl).qualifySupertype lib ref.qualifiedName ≠ rootType →
      ∀ kept met, R ((Scope.of u decl).qualifySupertype lib ref.qualifiedName) kept met →
        R X (kept.map (·.substituted (lib.argumentsFor (Scope.of u decl) ref)))
          (met.map (·.substituted (lib.argumentsFor (Scope.of u decl) ref)))
  picked : ∀ X kept met, R X kept met → R X (Method.unseen [] kept) met

/-- The outcome of loading a type agrees with a tour of it. -/
structure Agrees (R : String → List Method → List Method → Prop) (name : String)
    (outcome : Except Failure Surface × Trace) (tour : Tour) : Prop where
  visited : outcome.2.visited = tour.visited
  result :
    match outcome.1 with
    | .error _ => tour.methods = []
    | .ok s => s.typeParams = lib.typeParamsOf name ∧ R name s.methods tour.methods

variable {lib}
variable {inside : String → Prop} {R : String → List Method → List Method → Prop}

/-- **One supertype** in the search and on the tour. -/
theorem Keeps.addSupertype (keeps : lib.Keeps inside R) {X : String} {u : CompilationUnit}
    {decl : TypeDecl} (within : inside X) (declared : lib.declaration X = .ok (u, decl))
    {load : LoadStep} {tour : String → List String → Tour}
    (agrees : ∀ S t, inside S → lib.Agrees R S (load S t) (tour S t.visited)) {ref : TypeRef}
    (isSuper : ref ∈ decl.spec.supertypes) {g : Gathered} {h : Tour}
    (visited : g.trace.visited = h.visited) (methods : R X g.methods h.methods) :
    (lib.addSupertype (Scope.of u decl) load g ref).trace.visited =
        (lib.tourSupertype (Scope.of u decl) tour h ref).visited ∧
      R X (lib.addSupertype (Scope.of u decl) load g ref).methods
        (lib.tourSupertype (Scope.of u decl) tour h ref).methods := by
  have adds := addSupertype_adds lib (Scope.of u decl) load g ref
  have inherits := keeps.inherited X u decl within declared ref isSuper
  have inner (other : (Scope.of u decl).qualifySupertype lib ref.qualifiedName ≠ rootType) :
      inside ((Scope.of u decl).qualifySupertype lib ref.qualifiedName) :=
    keeps.closed X _ within ⟨u, decl, declared, ref, isSuper, rfl, other⟩
  unfold tourSupertype
  cases adds with
  | root isRoot visited' _ methods' =>
    rw [if_pos (.inl isRoot), visited', methods']
    exact ⟨visited, methods⟩
  | known _ member visited' _ methods' =>
    rw [if_pos (.inr (visited ▸ member)), visited', methods']
    exact ⟨visited, methods⟩
  | failed other fresh t same failure after loaded visited' _ methods' =>
    have one := agrees _ t (inner other)
    rw [loaded, same, visited] at one
    have none_ : (tour _ h.visited).methods = [] := one.result
    rw [if_neg (not_or.mpr ⟨other, visited ▸ fresh⟩), visited', methods']
    refine ⟨one.visited, ?_⟩
    simpa only [none_, List.map_nil, List.append_nil] using methods
  | loaded other fresh t same s after loaded visited' _ methods' =>
    have one := agrees _ t (inner other)
    rw [loaded, same, visited] at one
    obtain ⟨typeParams, related⟩ := one.result
    rw [if_neg (not_or.mpr ⟨other, visited ▸ fresh⟩), visited', methods']
    refine ⟨one.visited, keeps.append _ _ _ _ _ methods ?_⟩
    rw [Surface.inherited, typeParams]
    exact inherits other _ _ related

/-- All supertypes of a declaration. -/
theorem Keeps.foldl (keeps : lib.Keeps inside R) {X : String} {u : CompilationUnit}
    {decl : TypeDecl} (within : inside X) (declared : lib.declaration X = .ok (u, decl))
    {load : LoadStep} {tour : String → List String → Tour}
    (agrees : ∀ S t, inside S → lib.Agrees R S (load S t) (tour S t.visited)) (refs : List TypeRef)
    (areSuper : ∀ ref ∈ refs, ref ∈ decl.spec.supertypes) :
    ∀ (g : Gathered) (h : Tour), g.trace.visited = h.visited → R X g.methods h.methods →
      (refs.foldl (lib.addSupertype (Scope.of u decl) load) g).trace.visited =
          (refs.foldl (lib.tourSupertype (Scope.of u decl) tour) h).visited ∧
        R X (refs.foldl (lib.addSupertype (Scope.of u decl) load) g).methods
          (refs.foldl (lib.tourSupertype (Scope.of u decl) tour) h).methods := by
  induction refs with
  | nil => exact fun _ _ visited methods => ⟨visited, methods⟩
  | cons ref refs ih =>
    intro g h visited methods
    have one := keeps.addSupertype within declared agrees (areSuper ref List.mem_cons_self) visited
      methods
    exact ih (fun other member => areSuper other (List.mem_cons_of_mem _ member)) _ _ one.1 one.2

/-- **Loading keeps to the tour.** Whatever goes along with the steps of loading holds between the
methods of a loaded surface and those that the search has met. -/
theorem Keeps.loadWithin (keeps : lib.Keeps inside R) (bound : Nat) :
    ∀ (name : String) (t : Trace), inside name →
      lib.Agrees R name (lib.loadWithin bound name t) (lib.tourWithin bound name t.visited) := by
  induction bound with
  | zero => exact fun name t _ => ⟨rfl, rfl⟩
  | succ bound ih =>
    intro name t within
    unfold Library.loadWithin tourWithin
    cases declared : lib.declaration name with
    | error failure => exact ⟨rfl, rfl⟩
    | ok p =>
      obtain ⟨u, decl⟩ := p
      have gathered := keeps.foldl within declared ih decl.spec.supertypes (fun _ => id)
        ⟨[], _, (t.visit name).ask (lib.searchedOwn (Scope.of u decl) decl.spec)⟩
        ⟨_, name :: t.visited⟩ rfl (keeps.own name u decl within declared)
      refine ⟨gathered.1, ?_, ?_⟩
      · simp only [surfaceOf, typeParamsOf, declared]
      · apply keeps.picked
        by_cases isInterface : (Scope.of u decl).inInterface = true
        · simp only [isInterface, if_true, List.append_nil]
          exact gathered.2
        · simp only [isInterface]
          exact keeps.append _ _ _ _ _ gathered.2
            (keeps.rooted name u decl within declared (Bool.eq_false_iff.mpr isInterface))

/-- The search and the tour visit the same types. -/
theorem visited_loadWithin (lib : Library) (bound : Nat) (name : String) (t : Trace) :
    (lib.loadWithin bound name t).2.visited = (lib.tourWithin bound name t.visited).visited := by
  have trivially : lib.Keeps (fun _ => True) fun _ _ _ => True :=
    ⟨fun _ _ _ _ => trivial, fun _ _ _ _ _ => trivial, fun _ _ _ _ _ _ => trivial,
      fun _ _ _ _ _ _ _ => trivial, fun _ _ _ _ _ _ _ _ _ _ _ => trivial, fun _ _ _ _ => trivial⟩
  exact (trivially.loadWithin bound name t trivial).visited

/-! ### What is met -/

end Library

/-- What a method is apart from its types. -/
def Method.skeleton (m : Method) : Method :=
  { m with
    params := m.params.map fun p => { p with type := "" }
    returns := ""
    typeParams := []
    throws := [] }

@[simp] theorem Method.skeleton_substituted (m : Method) (mapping : TypeName.Substitution) :
    (m.substituted mapping).skeleton = m.skeleton := by
  simp [Method.skeleton, Method.substituted, Function.comp_def]

theorem Method.params_length_of_skeleton {m n : Method} (same : m.skeleton = n.skeleton) :
    m.params.length = n.params.length := by
  have params := congrArg (fun m => m.params.length) same
  simpa [Method.skeleton] using params

namespace Library

variable (lib : Library)

/-- Since some types were visited, the tour has met every method of the types visited then, with some
types for its type variables. -/
structure Covers (known : List String) (tour : Tour) : Prop where
  grown : ∀ X ∈ known, X ∈ tour.visited
  met : ∀ X ∈ tour.visited, X ∉ known → ∀ u decl, lib.declaration X = .ok (u, decl) →
    ∀ member ∈ decl.spec.methods, ∃ m ∈ tour.methods,
      m.skeleton = ((Scope.of u decl).method lib X member).skeleton

variable {lib}

theorem Covers.tourSupertype {known : List String} {g : Tour} (covers : lib.Covers known g)
    {scope : Scope} {tour : String → List String → Tour}
    (inner : ∀ S visited, lib.Covers visited (tour S visited)) (ref : TypeRef) :
    lib.Covers known (lib.tourSupertype scope tour g ref) := by
  unfold Library.tourSupertype
  dsimp only
  split
  · exact covers
  · have one := inner (scope.qualifySupertype lib ref.qualifiedName) g.visited
    refine ⟨fun X isKnown => one.grown X (covers.grown X isKnown), ?_⟩
    intro X visited unknown u decl declared member isMethod
    by_cases old : X ∈ g.visited
    · obtain ⟨m, met, same⟩ := covers.met X old unknown u decl declared member isMethod
      exact ⟨m, List.mem_append_left _ met, same⟩
    · obtain ⟨m, met, same⟩ := one.met X visited old u decl declared member isMethod
      exact ⟨_, List.mem_append_right _ (List.mem_map_of_mem met),
        (m.skeleton_substituted _).trans same⟩

theorem Covers.foldl {known : List String} (scope : Scope) {tour : String → List String → Tour}
    (inner : ∀ S visited, lib.Covers visited (tour S visited)) (refs : List TypeRef) :
    ∀ g, lib.Covers known g → lib.Covers known (refs.foldl (lib.tourSupertype scope tour) g) := by
  induction refs with
  | nil => exact fun _ covers => covers
  | cons ref refs ih => exact fun g covers => ih _ (covers.tourSupertype inner ref)

/-- **Nothing is left out.** A tour meets every method of every type that is visited on it. -/
theorem covers_tourWithin (lib : Library) (bound : Nat) :
    ∀ (name : String) (visited : List String),
      lib.Covers visited (lib.tourWithin bound name visited) := by
  induction bound with
  | zero => exact fun _ _ => ⟨fun _ => id, fun _ old new => absurd old new⟩
  | succ bound ih =>
    intro name visited
    unfold tourWithin
    cases declared : lib.declaration name with
    | error failure =>
      refine ⟨fun X => List.mem_cons_of_mem _, fun X member new u decl declared' => ?_⟩
      rcases List.mem_cons.mp member with rfl | old
      · rw [declared] at declared'
        cases declared'
      · exact absurd old new
    | ok p =>
      obtain ⟨u, decl⟩ := p
      have start : lib.Covers visited
          ⟨decl.spec.methods.map ((Scope.of u decl).method lib name), name :: visited⟩ := by
        refine ⟨fun X => List.mem_cons_of_mem _, fun X member new u' decl' declared' => ?_⟩
        rcases List.mem_cons.mp member with rfl | old
        · rw [declared] at declared'
          cases declared'
          exact fun member isMethod => ⟨_, List.mem_map_of_mem isMethod, rfl⟩
        · exact absurd old new
      have gathered := Covers.foldl (Scope.of u decl) ih decl.spec.supertypes _ start
      refine ⟨gathered.grown, fun X member new u' decl' declared' method isMethod => ?_⟩
      obtain ⟨m, met, same⟩ := gathered.met X member new u' decl' declared' method isMethod
      exact ⟨m, List.mem_append_left _ met, same⟩

/-- Only what is seen is kept or met. -/
theorem keeps_sees (lib : Library) : lib.Keeps (fun _ => True) fun X kept met =>
    (∀ m ∈ kept, lib.Sees X m) ∧ ∀ m ∈ met, lib.Sees X m where
  closed _ _ _ _ := trivial
  own X u decl _ declared := by
    have own : ∀ m ∈ decl.spec.methods.map ((Scope.of u decl).method lib X), lib.Sees X m :=
      List.forall_mem_map.mpr fun member isMethod => .own declared isMethod
    exact ⟨own, own⟩
  rooted X u decl _ declared isClass :=
    have rooted m (isRoot : m ∈ rootMethods) : lib.Sees X m := .rooted declared isClass isRoot
    ⟨rooted, rooted⟩
  append X kept met kept' met' first second :=
    ⟨List.forall_mem_append.mpr ⟨first.1, second.1⟩, List.forall_mem_append.mpr ⟨first.2, second.2⟩⟩
  inherited X u decl _ declared ref isSuper other kept met seen :=
    ⟨List.forall_mem_map.mpr fun m isKept => .inherited declared isSuper other (seen.1 m isKept),
      List.forall_mem_map.mpr fun m isMet => .inherited declared isSuper other (seen.2 m isMet)⟩
  picked X kept met seen := ⟨fun m picked => seen.1 m ((Method.unseen_sublist _ _).mem picked), seen.2⟩

end Library

/-! ### The tour of one load -/

namespace SourceLoader

variable {l : SourceLoader} {d : Disk} {name : String}

/-- The tour of one load. -/
def tour (l : SourceLoader) (d : Disk) (name : String) : Tour :=
  (l.library d).tourWithin (l.bound d) name []

/-- **Every type that can be reached is visited.** -/
theorem visited_of_reached (l : SourceLoader) (d : Disk) {X : String}
    (reached : ReflTransGen (l.library d).Extends name X) : X ∈ (l.tour d name).visited := by
  have searched := l.searched_load d name
  have same := Library.visited_loadWithin (l.library d) (l.bound d) name .start
  show X ∈ ((l.library d).tourWithin (l.bound d) name Trace.start.visited).visited
  rw [← same]
  induction reached with
  | refl => exact searched.self
  | tail _ edge ih => exact searched.closed _ ih List.not_mem_nil _ edge

/-- The supertypes of a loaded type hold the root type and those that it is declared with. -/
theorem supertypes_of_load {s : Surface} (loaded : (l.load d name).1 = .ok s) :
    rootType ∈ s.supertypes ∧ ∀ S, (l.library d).Extends name S → S ∈ s.supertypes := by
  have searched := l.searched_load d name
  have result := searched.result
  rw [show ((l.library d).loadWithin (l.bound d) name .start).1 = .ok s from loaded] at result
  obtain ⟨-, supertypes, -⟩ := result
  exact ⟨(supertypes rootType).mpr (.inl rfl), fun S edge =>
    (supertypes S).mpr (.inr ⟨name, searched.self, List.not_mem_nil, edge⟩)⟩

/-- A surface has the name of its type and the type parameters that this is declared with. -/
theorem head_of_load {s : Surface} (loaded : (l.load d name).1 = .ok s) :
    s.name = name ∧ s.typeParams = (l.library d).typeParamsOf name := by
  have result : ((l.library d).loadWithin (l.bound d) name .start).1 = .ok s := loaded
  unfold bound Library.loadWithin at result
  split at result
  · cases result
  · next declared =>
    cases result
    exact ⟨rfl, by simp only [Library.typeParamsOf, declared]⟩

/-- Every method that is declared by a type that can be reached is met. -/
theorem met_of_reached {Y : String} (reached : ReflTransGen (l.library d).Extends name Y)
    {u : CompilationUnit} {decl : TypeDecl} (declared : (l.library d).declaration Y = .ok (u, decl))
    {member : MethodMember} (isMethod : member ∈ decl.spec.methods) :
    ∃ m ∈ (l.tour d name).methods,
      m.skeleton = ((Scope.of u decl).method (l.library d) Y member).skeleton :=
  (Library.covers_tourWithin _ _ _ _).met Y (l.visited_of_reached d reached) List.not_mem_nil u decl
    declared member isMethod

/-- A class meets the methods of the root type. -/
theorem met_of_isRoot {u : CompilationUnit} {decl : TypeDecl}
    (declared : (l.library d).declaration name = .ok (u, decl))
    (isClass : decl.spec.header.kind.isInterface = false) :
    ∀ m ∈ rootMethods, m ∈ (l.tour d name).methods := by
  intro m isRoot
  have inClass : (Scope.of u decl).inInterface = false := isClass
  unfold tour bound
  rw [Library.tourWithin, declared]
  simp only [inClass]
  exact List.mem_append_right _ isRoot

/-- A type that is declared is loaded. -/
theorem load_of_declaration {p : CompilationUnit × TypeDecl}
    (declared : (l.library d).declaration name = .ok p) : ∃ s, (l.load d name).1 = .ok s := by
  unfold load bound
  rw [Library.loadWithin, declared]
  exact ⟨_, rfl⟩

theorem nodup_of_load {s : Surface} (loaded : (l.load d name).1 = .ok s) :
    (s.methods.map (·.signature)).Nodup := by
  have result : ((l.library d).loadWithin (l.bound d) name .start).1 = .ok s := loaded
  unfold bound Library.loadWithin at result
  split at result
  · cases result
  · cases result
    exact Method.unseen_nodup [] _

/-- What loading keeps to holds between the methods of a loaded surface and those of the tour. -/
theorem keeps_load {inside : String → Prop} {R : String → List Method → List Method → Prop}
    (keeps : (l.library d).Keeps inside R) (within : inside name) {s : Surface}
    (loaded : (l.load d name).1 = .ok s) : R name s.methods (l.tour d name).methods := by
  have agrees := (keeps.loadWithin (l.bound d) name .start within).result
  rw [show ((l.library d).loadWithin (l.bound d) name .start).1 = .ok s from loaded] at agrees
  exact agrees.2

end SourceLoader

end Forwarder
