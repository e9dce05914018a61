/-
**Which declaration wins.** Of all the methods with one key the search keeps the one it meets first, and
it goes depth first through the supertypes as they are listed. So an override can come too late: behind
the declaration that it overrides, when another way leads there earlier, or behind a method that is not
inherited at all.

* `Library.Steady` — putting in type arguments keeps common keys common.
* **`SourceLoader.methods_eq_unseen`** — the methods of a loaded type are the first ones of its tour.
* `Library.Below` — one type inherits from another; all do from the root type.
* `Library.Straight` — no way past an override to what it overrides.
* `Library.walked_tourWithin` — on straight ways the search meets overrides first.
* **`SourceLoader.load_most_derived`** — then no kept method is overridden, and `diamond_overridden` — it
  may be otherwise.
* **`SourceLoader.overridable_iff`** — the methods that can be overridden, exactly, and
  `private_displaces` — where one gets lost.
-/

import Forwarder.Proofs.Loading.Agreement
import Forwarder.Proofs.Loading.Retention

namespace Forwarder

open Relation (ReflTransGen TransGen)
open Source

/-! ### The first methods of a tour -/

theorem Method.substituted_nil (m : Method) : m.substituted [] = m := by
  have same : TypeName.substitute [] (TypeName.typeParamNames m.typeParams) = id :=
    funext (TypeName.mapIdentifiers_same fun _ => ite_self _)
  simp [Method.substituted, same]

namespace Library

variable (lib : Library)

/-- Where a type puts type arguments into what it inherits, methods with one key keep a common key. -/
def Steady (X : String) : Prop :=
  ∀ u decl, lib.declaration X = .ok (u, decl) → ∀ ref ∈ decl.spec.supertypes, ∀ m n,
    lib.Sees ((Scope.of u decl).qualifySupertype lib ref.qualifiedName) m →
    lib.Sees ((Scope.of u decl).qualifySupertype lib ref.qualifiedName) n →
    m.signature = n.signature →
    (m.substituted (lib.argumentsFor (Scope.of u decl) ref)).signature =
      (n.substituted (lib.argumentsFor (Scope.of u decl) ref)).signature

variable {lib}

/-- A type that gives no type arguments is steady. -/
theorem steady_of_plain {X : String} (plain : ∀ p, lib.declaration X = .ok p →
    ∀ ref ∈ p.2.spec.supertypes, lib.argumentsFor (Scope.of p.1 p.2) ref = []) : lib.Steady X := by
  intro u decl declared ref isSuper m n _ _ same
  rw [plain (u, decl) declared ref isSuper, Method.substituted_nil, Method.substituted_nil, same]

/-- What is picked from the kept methods is what would be picked from all that were met. -/
theorem keeps_first {name : String} (steady : ∀ X, ReflTransGen lib.Extends name X → lib.Steady X) :
    lib.Keeps (ReflTransGen lib.Extends name) fun X kept met =>
      ((∀ m ∈ kept, lib.Sees X m) ∧ ∀ m ∈ met, lib.Sees X m) ∧
        Method.unseen [] kept = Method.unseen [] met where
  closed _ _ reached edge := reached.tail edge
  own X u decl _ declared := ⟨lib.keeps_sees.own X u decl trivial declared, rfl⟩
  rooted X u decl _ declared isClass := ⟨lib.keeps_sees.rooted X u decl trivial declared isClass, rfl⟩
  append X kept met kept' met' first second :=
    ⟨lib.keeps_sees.append X kept met kept' met' first.1 second.1,
      Method.unseen_append_congr first.2 second.2⟩
  inherited X u decl reached declared ref isSuper other kept met related := by
    have common := steady X reached u decl declared ref isSuper
    obtain ⟨⟨keptSeen, metSeen⟩, same⟩ := related
    refine ⟨lib.keeps_sees.inherited X u decl trivial declared ref isSuper other kept met
      ⟨keptSeen, metSeen⟩, Method.unseen_map_congr ?_ ?_ same⟩
    · exact fun m isM n isN => common m n (keptSeen m isM) (keptSeen n isN)
    · exact fun m isM n isN => common m n (metSeen m isM) (metSeen n isN)
  picked X kept met related :=
    ⟨lib.keeps_sees.picked X kept met related.1, (Method.unseen_idem kept).trans related.2⟩

end Library

namespace SourceLoader

variable {l : SourceLoader} {d : Disk} {name : String} {s : Surface}

/-- **Of every key the first method that is met** is kept. -/
theorem methods_eq_unseen (loaded : (l.load d name).1 = .ok s)
    (steady : ∀ X, ReflTransGen (l.library d).Extends name X → (l.library d).Steady X) :
    s.methods = Method.unseen [] (l.tour d name).methods := by
  have same := (keeps_load (Library.keeps_first steady) .refl loaded).2
  rwa [Method.unseen_eq_self (nodup_of_load loaded) fun _ _ => List.not_mem_nil] at same

end SourceLoader

/-! ### Ways to a declaration -/

namespace Library

variable (lib : Library)

/-- The type inherits from the other one. All types do from the root type. -/
def Below (Y D : String) : Prop :=
  Y ≠ rootType ∧ (D = rootType ∨ TransGen lib.Extends Y D)

/-- The type is declared, and not as an interface. -/
def IsClass (X : String) : Prop :=
  ∃ u decl, lib.declaration X = .ok (u, decl) ∧ decl.spec.header.kind.isInterface = false

/-- Methods of the type `D` are met on the way through `S`. -/
def Meets (S D : String) : Prop :=
  ReflTransGen lib.Extends S D ∨ D = rootType ∧ ∃ C, ReflTransGen lib.Extends S C ∧ lib.IsClass C

/-- If one of the supertypes of a type leads to `D`, it also leads to all the types below `D` that a
later one leads to. -/
def Straight (D X : String) : Prop :=
  (lib.supertypesOf X).Pairwise fun first second => lib.Meets first D →
    ∀ Y, ReflTransGen lib.Extends second Y → lib.Below Y D → ReflTransGen lib.Extends first Y

/-- A tour was made on behalf of a type. Types visited earlier are either still being searched, and
then inherit from it, or they have been searched completely (`settled`). -/
structure Walked (D name : String) (known : List String) (tour : Tour) : Prop where
  grown : ∀ X ∈ known, X ∈ tour.visited
  self : name ∈ tour.visited
  closed : ∀ X ∈ tour.visited, X ∉ known → ∀ S, lib.Extends X S → S ∈ tour.visited
  meets : ∀ m ∈ tour.methods, lib.Meets name m.declaredIn
  fresh : ∀ m ∈ tour.methods, m.declaredIn = rootType ∨ m.declaredIn ∉ known
  ordered : tour.methods.Pairwise fun first second =>
    first.declaredIn = D → ¬lib.Below second.declaredIn D

/-- The supertypes `done` of a declaration have been gone through. -/
structure Walks (D name : String) (known done : List String) (tour : Tour) : Prop where
  grown : ∀ X ∈ name :: known, X ∈ tour.visited
  named : ∀ S ∈ done, S ∈ tour.visited
  closed : ∀ X ∈ tour.visited, X ∉ name :: known → ∀ S, lib.Extends X S → S ∈ tour.visited
  meets : ∀ m ∈ tour.methods, m.declaredIn = name ∨ ∃ S ∈ done, lib.Meets S m.declaredIn
  fresh : ∀ m ∈ tour.methods, m.declaredIn = rootType ∨ m.declaredIn ∉ known
  ordered : tour.methods.Pairwise fun first second =>
    first.declaredIn = D → ¬lib.Below second.declaredIn D

/-- The types visited before `name` are still open, or their supertypes have been visited. -/
def Settled (name : String) (known : List String) : Prop :=
  ∀ X ∈ known, TransGen lib.Extends X name ∨ ∀ S, lib.Extends X S → S ∈ known

variable {lib}

section Walks

variable {D name : String} {known done : List String} {g : Tour}

/-- What a supertype leads to has been visited when it has been gone through. -/
theorem Walks.mem_of_reached (walks : lib.Walks D name known done g) (settled : lib.Settled name known)
    (acyclic : ¬TransGen lib.Extends name name) {S : String} (isDone : S ∈ done)
    (edge : lib.Extends name S) {Y : String} (reached : ReflTransGen lib.Extends S Y) :
    Y ∈ g.visited := by
  induction reached with
  | refl => exact walks.named S isDone
  | @tail X Y path next ih =>
    -- A type that is still open would lead back to where the search is.
    have below : TransGen lib.Extends name X := .head' edge path
    by_cases old : X ∈ name :: known
    · rcases List.mem_cons.mp old with rfl | old
      · exact absurd below acyclic
      · rcases settled X old with isOpen | finished
        · exact absurd (below.trans isOpen) acyclic
        · exact walks.grown Y (List.mem_cons_of_mem _ (finished Y next))
    · exact walks.closed X ih old Y next

theorem Walks.settled (walks : lib.Walks D name known done g) (settled : lib.Settled name known)
    {S : String} (edge : lib.Extends name S) : lib.Settled S g.visited := by
  intro X visited
  by_cases old : X ∈ name :: known
  · rcases List.mem_cons.mp old with rfl | old
    · exact .inl (.single edge)
    · rcases settled X old with isOpen | finished
      · exact .inl (isOpen.tail edge)
      · exact .inr fun Y next => walks.grown Y (List.mem_cons_of_mem _ (finished Y next))
  · exact .inr (walks.closed X visited old)

/-- **One more supertype**, visited for the first time. -/
theorem Walks.step (walks : lib.Walks D name known done g) (settled : lib.Settled name known)
    (acyclic : ¬TransGen lib.Extends name name) (notRoot : name ≠ rootType) {S : String}
    (edges : ∀ S' ∈ done, lib.Extends name S') (edge : lib.Extends name S)
    (straight : ∀ first ∈ done, lib.Meets first D → ∀ Y, ReflTransGen lib.Extends S Y →
      lib.Below Y D → ReflTransGen lib.Extends first Y)
    {inner : Tour} (walked : lib.Walked D S g.visited inner) (mapping : TypeName.Substitution) :
    lib.Walks D name known (done ++ [S])
      ⟨g.methods ++ inner.methods.map (·.substituted mapping), inner.visited⟩ where
  grown X old := walked.grown X (walks.grown X old)
  named X isDone := by
    rcases List.mem_append.mp isDone with before | here
    · exact walked.grown X (walks.named X before)
    · exact List.mem_singleton.mp here ▸ walked.self
  closed X visited new Y next := by
    by_cases old : X ∈ g.visited
    · exact walked.grown Y (walks.closed X old new Y next)
    · exact walked.closed X visited old Y next
  meets := by
    refine List.forall_mem_append.mpr ⟨fun m member => ?_, List.forall_mem_map.mpr fun m member => ?_⟩
    · rcases walks.meets m member with own | ⟨S', isDone, meets⟩
      · exact .inl own
      · exact .inr ⟨S', List.mem_append_left _ isDone, meets⟩
    · exact .inr ⟨S, List.mem_append_right _ (List.mem_singleton_self S), walked.meets m member⟩
  fresh := by
    refine List.forall_mem_append.mpr ⟨walks.fresh, List.forall_mem_map.mpr fun m member => ?_⟩
    refine (walked.fresh m member).imp_right fun new old => ?_
    exact new (walks.grown _ (List.mem_cons_of_mem _ old))
  ordered := by
    refine List.pairwise_append.mpr ⟨walks.ordered, List.pairwise_map.mpr walked.ordered, ?_⟩
    intro first isFirst second isSecond isD below
    obtain ⟨m, member, rfl⟩ := List.mem_map.mp isSecond
    have reached : ReflTransGen lib.Extends S m.declaredIn :=
      (walked.meets m member).resolve_right fun ⟨isRoot, _⟩ => below.1 isRoot
    have new : m.declaredIn ∉ g.visited := (walked.fresh m member).resolve_left below.1
    rcases walks.meets first isFirst with own | ⟨S', isDone, meets⟩
    · -- What is below the type itself leads back to it.
      obtain rfl : D = name := isD.symm.trans own
      exact acyclic (.head edge (.trans_right reached (below.2.resolve_left notRoot)))
    · rw [isD] at meets
      exact new (walks.mem_of_reached settled acyclic isDone (edges S' isDone)
        (straight S' isDone meets _ reached below))

/-- The names of the supertypes, without the root type. -/
def superNames (lib : Library) (scope : Scope) (refs : List TypeRef) : List String :=
  (refs.map fun ref => scope.qualifySupertype lib ref.qualifiedName).filter (· != rootType)

/-- All supertypes of a declaration. -/
theorem Walks.foldl (settled : lib.Settled name known) (acyclic : ¬TransGen lib.Extends name name)
    (notRoot : name ≠ rootType) {scope : Scope} {tour : String → List String → Tour}
    (walked : ∀ S visited, lib.Extends name S → (∀ X ∈ name :: known, X ∈ visited) → S ∉ visited →
      lib.Settled S visited → lib.Walked D S visited (tour S visited)) (refs : List TypeRef) :
    ∀ (done : List String) (g : Tour),
      (∀ S ∈ done ++ lib.superNames scope refs, lib.Extends name S) →
      ((done ++ lib.superNames scope refs).Pairwise fun first second => lib.Meets first D →
        ∀ Y, ReflTransGen lib.Extends second Y → lib.Below Y D → ReflTransGen lib.Extends first Y) →
      lib.Walks D name known done g →
      lib.Walks D name known (done ++ lib.superNames scope refs)
        (refs.foldl (lib.tourSupertype scope tour) g) := by
  induction refs with
  | nil =>
    intro done g _ _ walks
    rwa [superNames, List.map_nil, List.filter_nil, List.append_nil]
  | cons ref refs ih =>
    intro done g edges straight walks
    rw [List.foldl_cons, tourSupertype]
    by_cases isRoot : scope.qualifySupertype lib ref.qualifiedName = rootType
    · have same : lib.superNames scope (ref :: refs) = lib.superNames scope refs := by
        simp [superNames, isRoot]
      rw [same] at edges straight ⊢
      rw [if_pos (.inl isRoot)]
      exact ih done g edges straight walks
    · have same : lib.superNames scope (ref :: refs) =
          [scope.qualifySupertype lib ref.qualifiedName] ++ lib.superNames scope refs := by
        simp [superNames, isRoot]
      generalize scope.qualifySupertype lib ref.qualifiedName = S at isRoot same ⊢
      rw [same, ← List.append_assoc] at edges straight ⊢
      have edge : lib.Extends name S := edges S (by simp)
      by_cases old : S ∈ g.visited
      · rw [if_pos (.inr old)]
        refine ih _ g edges straight ⟨walks.grown, ?_, walks.closed, fun m member => ?_, walks.fresh,
          walks.ordered⟩
        · exact List.forall_mem_append.mpr ⟨walks.named, List.forall_mem_singleton.mpr old⟩
        · refine (walks.meets m member).imp_right fun ⟨S', isDone, meets⟩ => ?_
          exact ⟨S', List.mem_append_left _ isDone, meets⟩
      · rw [if_neg (not_or.mpr ⟨isRoot, old⟩)]
        have pairs := (List.pairwise_append.mp (List.pairwise_append.mp straight).1).2.2
        exact ih _ _ edges straight (walks.step settled acyclic notRoot
          (fun S' isDone => edges S' (by simp [isDone])) edge
          (fun first isDone => pairs first isDone S (List.mem_singleton_self S))
          (walked S g.visited edge walks.grown old (walks.settled settled edge)) _)

/-- The methods of the root type come last. -/
theorem Walks.finish {u : CompilationUnit} {decl : TypeDecl}
    (declared : lib.declaration name = .ok (u, decl))
    (walks : lib.Walks D name known (lib.supertypesOf name) g) :
    lib.Walked D name known
      ⟨g.methods ++ (if (Scope.of u decl).inInterface then [] else rootMethods), g.visited⟩ := by
  have rooted : ∀ m ∈ if (Scope.of u decl).inInterface then [] else rootMethods,
      m.declaredIn = rootType ∧ lib.IsClass name := by
    intro m member
    by_cases isInterface : (Scope.of u decl).inInterface = true
    · rw [if_pos isInterface] at member
      cases member
    · rw [if_neg isInterface] at member
      have all : ∀ m ∈ rootMethods, m.declaredIn = rootType := by decide
      exact ⟨all m member, u, decl, declared, Bool.eq_false_iff.mpr isInterface⟩
  refine ⟨fun X old => walks.grown X (List.mem_cons_of_mem _ old), walks.grown name List.mem_cons_self,
    fun X visited new S edge => ?_, ?_, ?_, ?_⟩
  · by_cases isName : X = name
    · exact walks.named S (extends_iff.mp (isName ▸ edge))
    · exact walks.closed X visited (fun old => (List.mem_cons.mp old).elim isName new) S edge
  · refine List.forall_mem_append.mpr ⟨fun m member => ?_, fun m member => ?_⟩
    · rcases walks.meets m member with own | ⟨S, isSuper, reached | ⟨isRoot, C, reached, isClass⟩⟩
      · exact .inl (own ▸ .refl)
      · exact .inl (.head (extends_iff.mpr isSuper) reached)
      · exact .inr ⟨isRoot, C, .head (extends_iff.mpr isSuper) reached, isClass⟩
    · exact .inr ⟨(rooted m member).1, name, .refl, (rooted m member).2⟩
  · exact List.forall_mem_append.mpr ⟨walks.fresh, fun m member => .inl (rooted m member).1⟩
  · refine List.pairwise_append.mpr ⟨walks.ordered, ?_, ?_⟩
    · exact List.Pairwise.imp_of_mem (fun _ isSecond _ _ below => below.1 (rooted _ isSecond).1)
        (List.pairwise_of_forall (R := fun _ _ => True) fun _ _ => trivial)
    · exact fun first _ second isSecond _ below => below.1 (rooted second isSecond).1

end Walks

theorem ne_rootType_of_reached {root X : String} (notRoot : root ≠ rootType)
    (reached : ReflTransGen lib.Extends root X) : X ≠ rootType := by
  cases reached with
  | refl => exact notRoot
  | tail _ edge =>
    obtain ⟨_, _, _, _, _, _, other⟩ := edge
    exact other

/-- Types that are listed in front of their supertypes do not inherit from themselves. -/
theorem acyclic_of_sorted {names : List String} (sorted : ∀ X ∈ names, ∀ S ∈ lib.supertypesOf X,
    S ∈ names ∧ names.idxOf X < names.idxOf S) {X : String} (member : X ∈ names) :
    ¬TransGen lib.Extends X X := by
  have later {Y : String} (path : TransGen lib.Extends X Y) :
      Y ∈ names ∧ names.idxOf X < names.idxOf Y := by
    induction path with
    | single edge => exact sorted X member _ (extends_iff.mp edge)
    | tail _ edge ih =>
      obtain ⟨isName, before⟩ := sorted _ ih.1 _ (extends_iff.mp edge)
      exact ⟨isName, Nat.lt_trans ih.2 before⟩
  exact fun cycle => Nat.lt_irrefl _ (later cycle).2

/-- **The search meets overrides first**, if it has no way past them. -/
theorem walked_tourWithin {names : List String} (all : ∀ X S, lib.Extends X S → S ∈ names)
    {D root : String} (notRoot : root ≠ rootType)
    (acyclic : ∀ X, ReflTransGen lib.Extends root X → ¬TransGen lib.Extends X X)
    (straight : ∀ X, ReflTransGen lib.Extends root X → lib.Straight D X) (bound : Nat) :
    ∀ (name : String) (t : Trace), ReflTransGen lib.Extends root name → name ∉ t.visited →
      unvisited names (t.visit name) < bound → lib.Settled name t.visited →
      lib.Walked D name t.visited (lib.tourWithin bound name t.visited) := by
  induction bound with
  | zero => exact fun _ _ _ _ small => absurd small (Nat.not_lt_zero _)
  | succ bound ih =>
    intro name t reached fresh small settled
    have other := ne_rootType_of_reached notRoot reached
    have acyclicHere := acyclic name reached
    rw [tourWithin]
    cases declared : lib.declaration name with
    | error failure =>
      refine ⟨fun X => List.mem_cons_of_mem _, List.mem_cons_self, fun X member new S edge => ?_,
        List.forall_mem_nil _, List.forall_mem_nil _, .nil⟩
      obtain rfl := (List.mem_cons.mp member).resolve_right new
      obtain ⟨_, _, same, _⟩ := edge
      rw [declared] at same
      cases same
    | ok p =>
      obtain ⟨u, decl⟩ := p
      have supertypes : lib.supertypesOf name =
          lib.superNames (Scope.of u decl) decl.spec.supertypes := by
        rw [supertypesOf, declared, superNames]
      have start : lib.Walks D name t.visited []
          ⟨decl.spec.methods.map ((Scope.of u decl).method lib name), name :: t.visited⟩ := by
        refine ⟨fun X => id, List.forall_mem_nil _, fun X old new => absurd old new,
          List.forall_mem_map.mpr fun _ _ => .inl rfl, List.forall_mem_map.mpr fun _ _ => .inr fresh,
          List.pairwise_map.mpr (List.pairwise_of_forall fun _ _ => ?_)⟩
        rintro rfl below
        exact acyclicHere (below.2.resolve_left other)
      have walks := Walks.foldl settled acyclicHere other
        (fun S visited edge grown new settled' => by
          refine ih S ⟨visited, []⟩ (reached.tail edge) new ?_ settled'
          have fewer := unvisited_visit_lt (t := ⟨visited, []⟩) (all name S edge) new
          have less : unvisited names ⟨visited, []⟩ ≤ unvisited names (t.visit name) :=
            unvisited_le names grown
          omega)
        decl.spec.supertypes [] _ (by
          rw [List.nil_append, ← supertypes]
          exact fun S isSuper => extends_iff.mpr isSuper) (by
          rw [List.nil_append, ← supertypes]
          exact straight name reached) start
      rw [List.nil_append, ← supertypes] at walks
      exact walks.finish declared

end Library

namespace SourceLoader

variable {l : SourceLoader} {d : Disk} {name : String} {s : Surface}

theorem walked_tour (l : SourceLoader) (d : Disk) (notRoot : name ≠ rootType)
    (acyclic : ∀ X, ReflTransGen (l.library d).Extends name X → ¬TransGen (l.library d).Extends X X)
    {D : String} (straight : ∀ X, ReflTransGen (l.library d).Extends name X →
      (l.library d).Straight D X) : (l.library d).Walked D name [] (l.tour d name) :=
  Library.walked_tourWithin (fun _ _ => mem_namesIn_of_extends) notRoot acyclic straight _ name
    .start .refl List.not_mem_nil (l.unvisited_start_lt_bound d name) (List.forall_mem_nil _)

/-- **The most derived declaration wins where the search has no way past it.** Every method that is
declared by a type that can be reached is met. A kept method is the most derived one: if every way to the
type that declares it leads past all the types below that type, none of them has a method with its key. -/
theorem load_most_derived (loaded : (l.load d name).1 = .ok s) (notRoot : name ≠ rootType)
    (acyclic : ∀ X, ReflTransGen (l.library d).Extends name X → ¬TransGen (l.library d).Extends X X)
    (steady : ∀ X, ReflTransGen (l.library d).Extends name X → (l.library d).Steady X) :
    (∀ Y u decl, ReflTransGen (l.library d).Extends name Y →
      (l.library d).declaration Y = .ok (u, decl) → ∀ member ∈ decl.spec.methods,
      ∃ o ∈ (l.tour d name).methods,
        o.skeleton = ((Scope.of u decl).method (l.library d) Y member).skeleton) ∧
    ∀ m ∈ s.methods, (∀ X, ReflTransGen (l.library d).Extends name X →
        (l.library d).Straight m.declaredIn X) →
      ∀ o ∈ (l.tour d name).methods, (l.library d).Below o.declaredIn m.declaredIn →
        o.signature ≠ m.signature := by
  refine ⟨fun Y u decl reached declared member => met_of_reached reached declared,
    fun m isKept straight o isMet below same => ?_⟩
  have walked := l.walked_tour d notRoot acyclic straight
  rw [methods_eq_unseen loaded steady] at isKept
  obtain ⟨_, front, back, split, before⟩ :=
    List.find?_eq_some_iff_append.mp (Method.find?_of_mem_unseen isKept)
  have ordered := walked.ordered
  rw [split] at isMet ordered
  rcases List.mem_append.mp isMet with isFront | isBack
  · exact absurd same (by simpa using before o isFront)
  · rcases List.mem_cons.mp isBack with rfl | later
    · -- A type that is below itself would be on a cycle.
      have reached : ReflTransGen (l.library d).Extends name o.declaredIn :=
        (walked.meets o (split ▸ isMet)).resolve_right fun ⟨isRoot, _⟩ => below.1 isRoot
      exact acyclic _ reached (below.2.resolve_left below.1)
    · exact (List.pairwise_cons.mp (List.pairwise_append.mp ordered).2.1).1 o later rfl below

/-- An interface that overrides a method, listed in front of the one that declares it. -/
def forkDisk : Disk :=
  diskOf [(["p"], "A", "package p; interface A extends C, B \x7b \x7d"),
    (["p"], "C", "package p; interface C extends B \x7b int get(); \x7d"),
    (["p"], "B", "package p; interface B \x7b long get(); void run(); \x7d")]

/-- What the interfaces extend, and that they do so without arguments. -/
theorem fork_declared : (((ofRoots ["."]).library forkDisk).supertypesOf "p.A" = ["p.C", "p.B"] ∧
    ((ofRoots ["."]).library forkDisk).supertypesOf "p.C" = ["p.B"] ∧
    ((ofRoots ["."]).library forkDisk).supertypesOf "p.B" = []) ∧
    ∀ X ∈ ["p.A", "p.C", "p.B"], (((ofRoots ["."]).library forkDisk).declaration X).toOption.all (fun p =>
      decide (∀ ref ∈ p.2.spec.supertypes,
        ((ofRoots ["."]).library forkDisk).argumentsFor (Scope.of p.1 p.2) ref = [])) = true := by
  decide +kernel

theorem fork_sorted : ∀ X ∈ ["p.A", "p.C", "p.B"],
    ∀ S ∈ ((ofRoots ["."]).library forkDisk).supertypesOf X,
      S ∈ ["p.A", "p.C", "p.B"] ∧ ["p.A", "p.C", "p.B"].idxOf X < ["p.A", "p.C", "p.B"].idxOf S := by
  obtain ⟨ofA, ofC, ofB⟩ := fork_declared.1
  simp only [List.forall_mem_cons, ofA, ofC, ofB]
  decide

theorem fork_mem {X : String} (reached : ReflTransGen ((ofRoots ["."]).library forkDisk).Extends "p.A" X) :
    X ∈ ["p.A", "p.C", "p.B"] :=
  Library.mem_of_reached (by decide) (fun X member S isSuper => (fork_sorted X member S isSuper).1) reached

theorem fork_steady (X : String)
    (reached : ReflTransGen ((ofRoots ["."]).library forkDisk).Extends "p.A" X) :
    ((ofRoots ["."]).library forkDisk).Steady X := by
  exact Library.steady_of_plain (forall_of_all (fork_declared.2 X (fork_mem reached)))

theorem fork_straight (X : String)
    (reached : ReflTransGen ((ofRoots ["."]).library forkDisk).Extends "p.A" X) :
    ((ofRoots ["."]).library forkDisk).Straight "p.B" X := by
  obtain ⟨ofA, ofC, ofB⟩ := fork_declared.1
  have edge : ((ofRoots ["."]).library forkDisk).Extends "p.C" "p.B" :=
    Library.extends_iff.mpr (ofC ▸ List.mem_singleton_self _)
  have member := fork_mem reached
  simp only [List.mem_cons, List.not_mem_nil, or_false] at member
  unfold Library.Straight
  rcases member with rfl | rfl | rfl
  · rw [ofA]
    exact List.pairwise_pair.mpr fun _ Y reachedY _ => .head edge reachedY
  · rw [ofC]
    exact List.pairwise_singleton ..
  · rw [ofB]
    exact .nil

theorem fork_loaded : ∃ s, ((ofRoots ["."]).load forkDisk "p.A").1 = .ok s := by
  obtain ⟨_, _, declared, -⟩ : ((ofRoots ["."]).library forkDisk).Extends "p.A" "p.C" :=
    Library.extends_iff.mpr (fork_declared.1.1 ▸ List.mem_cons_self)
  exact load_of_declaration declared

theorem load_most_derived_fork : ∃ s, ((ofRoots ["."]).load forkDisk "p.A").1 = .ok s ∧
    ∀ m ∈ s.methods, m.declaredIn = "p.B" → ∀ o ∈ ((ofRoots ["."]).tour forkDisk "p.A").methods,
      ((ofRoots ["."]).library forkDisk).Below o.declaredIn "p.B" → o.signature ≠ m.signature := by
  obtain ⟨s, loaded⟩ := fork_loaded
  have derived := (load_most_derived loaded (by decide)
    (fun X reached => Library.acyclic_of_sorted fork_sorted (fork_mem reached)) fork_steady).2
  refine ⟨s, loaded, fun m isKept isB o isMet below => ?_⟩
  exact derived m isKept (isB ▸ fork_straight) o isMet (isB ▸ below)

/-- An interface that overrides a method, listed behind another one that leads to its declaration. -/
def diamondDisk : Disk :=
  diskOf [(["p"], "A", "package p; interface A extends B, C \x7b \x7d"),
    (["p"], "B", "package p; interface B extends I \x7b \x7d"),
    (["p"], "C", "package p; interface C extends I \x7b Integer get(); \x7d"),
    (["p"], "I", "package p; interface I \x7b Object get(); \x7d")]

/-- **In a diamond** the declaration that is overridden may be the one that is kept. -/
theorem diamond_overridden : ∃ s, ((ofRoots ["."]).load diamondDisk "p.A").1 = .ok s ∧
    ∃ m ∈ s.methods, ∃ o ∈ ((ofRoots ["."]).tour diamondDisk "p.A").methods,
      m.declaredIn = "p.I" ∧ o.declaredIn = "p.C" ∧ o.signature = m.signature ∧
      ReflTransGen ((ofRoots ["."]).library diamondDisk).Extends "p.A" "p.C" ∧
      TransGen ((ofRoots ["."]).library diamondDisk).Extends "p.C" "p.I" := by
  obtain ⟨closed, ⟨ofA, ofC⟩, displaced⟩ : (∀ X ∈ ["p.A", "p.B", "p.C", "p.I"],
        ∀ S ∈ ((ofRoots ["."]).library diamondDisk).supertypesOf X, S ∈ ["p.A", "p.B", "p.C", "p.I"]) ∧
      ("p.C" ∈ ((ofRoots ["."]).library diamondDisk).supertypesOf "p.A" ∧
        "p.I" ∈ ((ofRoots ["."]).library diamondDisk).supertypesOf "p.C") ∧
      (((ofRoots ["."]).library diamondDisk).loadWithin 4 "p.A" .start).1.toOption.any (fun s =>
        decide (∃ m ∈ s.methods, ∃ o ∈ (((ofRoots ["."]).library diamondDisk).tourWithin 4 "p.A" []).methods,
          m.declaredIn = "p.I" ∧ o.declaredIn = "p.C" ∧ o.signature = m.signature)) = true := by
    decide +kernel
  obtain ⟨s, loaded, m, isKept, o, isMet, isI, isC, same⟩ := exists_of_any displaced
  rw [load_of_closed closed List.mem_cons_self rfl, tour_of_closed closed List.mem_cons_self rfl]
  exact ⟨s, loaded, m, isKept, o, isMet, isI, isC, same, .single (Library.extends_iff.mpr ofA),
    .single (Library.extends_iff.mpr ofC)⟩

/-- **The methods that can be overridden, exactly.** The surface has one with a key if the first method
with this key on the tour can be overridden; whatever comes later does not matter. -/
theorem overridable_iff (loaded : (l.load d name).1 = .ok s)
    (steady : ∀ X, ReflTransGen (l.library d).Extends name X → (l.library d).Steady X) (key : String) :
    (∃ m ∈ s.overridable, m.signature = key) ↔
      ∃ front m back, (l.tour d name).methods = front ++ m :: back ∧ m.signature = key ∧
        m.isOverridable = true ∧ ∀ o ∈ front, o.signature ≠ key := by
  have methods := methods_eq_unseen loaded steady
  constructor
  · rintro ⟨m, isOverridable, rfl⟩
    obtain ⟨isKept, isOverridable⟩ := List.mem_filter.mp isOverridable
    rw [methods] at isKept
    obtain ⟨_, front, back, split, before⟩ :=
      List.find?_eq_some_iff_append.mp (Method.find?_of_mem_unseen isKept)
    exact ⟨front, m, back, split, rfl, isOverridable, by simpa using before⟩
  · rintro ⟨front, m, back, split, rfl, isOverridable, before⟩
    have isKey : m.signature ∈ s.methods.map (·.signature) := by
      rw [methods, Method.mem_signature_unseen, split]
      exact ⟨List.mem_map_of_mem (List.mem_append_right _ List.mem_cons_self), List.not_mem_nil⟩
    obtain ⟨k, isKept, same⟩ := List.mem_map.mp isKey
    -- The kept method is the first one with the key, and that is `m`.
    have first := Method.find?_of_mem_unseen (methods ▸ isKept)
    have found : (l.tour d name).methods.find? (·.signature == k.signature) = some m := by
      rw [List.find?_eq_some_iff_append]
      refine ⟨by simp [same], front, back, split, fun o isFront => ?_⟩
      simpa [same] using before o isFront
    obtain rfl := Option.some.inj (first.symm.trans found)
    exact ⟨k, List.mem_filter.mpr ⟨isKept, isOverridable⟩, rfl⟩

theorem overridable_iff_fork : ∃ s, ((ofRoots ["."]).load forkDisk "p.A").1 = .ok s ∧ ∀ key,
    (∃ m ∈ s.overridable, m.signature = key) ↔
      ∃ front m back, ((ofRoots ["."]).tour forkDisk "p.A").methods = front ++ m :: back ∧
        m.signature = key ∧ m.isOverridable = true ∧ ∀ o ∈ front, o.signature ≠ key := by
  obtain ⟨s, loaded⟩ := fork_loaded
  exact ⟨s, loaded, overridable_iff loaded fork_steady⟩

/-- A private method of a superclass, and one of an interface with its key. -/
def privateDisk : Disk :=
  diskOf [(["p"], "A", "package p; class A extends B implements I \x7b \x7d"),
    (["p"], "B", "package p; class B \x7b private void close() \x7b \x7d \x7d"),
    (["p"], "I", "package p; interface I \x7b default void close() \x7b \x7d \x7d")]

/-- **A private method displaces** the one of the interface, although it is not inherited. -/
theorem private_displaces : ∃ s, ((ofRoots ["."]).load privateDisk "p.A").1 = .ok s ∧
    (∃ o ∈ ((ofRoots ["."]).tour privateDisk "p.A").methods, o.declaredIn = "p.I" ∧
      o.isOverridable = true ∧ o.signature = "close()") ∧
    (∀ o ∈ ((ofRoots ["."]).tour privateDisk "p.A").methods, o.signature = "close()" →
      o.isOverridable = true ∨ o.visibility = .privately ∧ o.declaredIn ≠ "p.A") ∧
    ∀ m ∈ s.overridable, m.signature ≠ "close()" := by
  obtain ⟨closed, displaced⟩ : (∀ X ∈ ["p.A", "p.B", "p.I"],
        ∀ S ∈ ((ofRoots ["."]).library privateDisk).supertypesOf X, S ∈ ["p.A", "p.B", "p.I"]) ∧
      (((ofRoots ["."]).library privateDisk).loadWithin 3 "p.A" .start).1.toOption.any (fun s =>
        decide ((∃ o ∈ (((ofRoots ["."]).library privateDisk).tourWithin 3 "p.A" []).methods,
            o.declaredIn = "p.I" ∧ o.isOverridable = true ∧ o.signature = "close()") ∧
          (∀ o ∈ (((ofRoots ["."]).library privateDisk).tourWithin 3 "p.A" []).methods,
            o.signature = "close()" →
              o.isOverridable = true ∨ o.visibility = .privately ∧ o.declaredIn ≠ "p.A") ∧
          ∀ m ∈ s.overridable, m.signature ≠ "close()")) = true := by
    decide +kernel
  rw [load_of_closed closed List.mem_cons_self rfl, tour_of_closed closed List.mem_cons_self rfl]
  exact exists_of_any displaced

end SourceLoader

end Forwarder
