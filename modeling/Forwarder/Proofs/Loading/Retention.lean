/-
**No declared method is lost.** The methods of a type travel up through the types that inherit from it.
On every step type arguments are put in and methods with a key that was met before are dropped, but a key
tells the name of its method and the number of its parameters, and putting in type arguments changes
neither. So for every method that is met, one with its name and its number of parameters is kept.

* `Scope.isFlat_qualify` — qualified names are flat.
* `Method.Keyed.substituted`, `Scope.keyed_method` — the keys of methods can be taken apart.
* **`Library.keeps_represented`** — loading keeps a method for every name and number of parameters.
* `SourceLoader.Genuine` — what is remembered was read from texts, which loading never changes.
* **`SourceLoader.load_declared`** — the methods of a loaded type.
-/

import Forwarder.Proofs.Loading.Texts
import Forwarder.Proofs.Loading.Tour
import Forwarder.Proofs.Source.Levels
import Forwarder.Proofs.Substitution

open Forwarder.TypeName (IsFlat IsLevel isPlainChar)

namespace Forwarder

open Relation (ReflTransGen)
open Source

/-! ### Qualified names -/

namespace Scope

variable {lib : Library} {u : CompilationUnit} {decl : TypeDecl} {vars : List String}

theorem isFlat_within {package name : String} (isPackage : IsFlat package.toList)
    (flat : IsFlat name.toList) : IsFlat (package ++ "." ++ name).toList := by
  rw [String.toList_append, String.toList_append, List.append_assoc]
  exact isPackage.append (List.forall_mem_append.mpr ⟨List.all_eq_true.mp (by decide), flat.plain⟩)

theorem isFlat_import (names : u.FlatNames) {i : ImportDecl} (isImport : i ∈ u.imports) :
    IsFlat i.name.toList :=
  isFlat_join (names.imports i isImport) (List.cons_ne_nil _ _)

theorem isFlat_target (names : u.FlatNames) {i : ImportDecl} (isImport : i ∈ u.imports) :
    IsFlat i.target.toList := by
  have each := names.imports i isImport
  unfold ImportDecl.target
  split_ifs with onDemand
  · refine isFlat_join (fun part member => each part ((List.dropLast_sublist _).mem member)) ?_
    -- The star is a segment of its own behind the first one.
    have some_ : i.tail ≠ [] := by
      rintro none_
      simp [ImportDecl.onDemand, none_] at onDemand
    rw [ImportDecl.segments, List.dropLast_cons_of_ne_nil (by simpa using some_)]
    exact List.cons_ne_nil _ _
  · exact isFlat_join each (List.cons_ne_nil _ _)

/-- A package in which a simple name is looked for. -/
theorem isFlat_of_looksIn (names : u.FlatNames) {package : String} (isPackage : (Scope.of u decl).LooksIn package) :
    IsFlat package.toList := by
  rcases isPackage with ⟨rfl, some_⟩ | onDemand
  · unfold Scope.of CompilationUnit.packageName at some_ ⊢
    cases isNamed : u.packageDecl with
    | none =>
      rw [isNamed] at some_
      exact absurd rfl some_
    | some package => exact names.package package isNamed
  · obtain ⟨i, isImport, rfl⟩ := List.mem_map.mp onDemand
    exact isFlat_target names (List.mem_filter.mp isImport).1

/-- **Qualifying a flat name** gives a flat one. -/
theorem isFlat_qualify (names : u.FlatNames) {name : String} (flat : IsFlat name.toList) :
    IsFlat ((Scope.of u decl).qualify lib vars name).toList := by
  rcases (Scope.of u decl).qualify_cases lib vars name with same | ⟨package, isPackage, within⟩ | imported
  · rwa [same]
  · rw [within]
    exact isFlat_within (isFlat_of_looksIn names isPackage) flat
  · obtain ⟨i, member, pair⟩ := List.mem_map.mp (mem_of_lookup_eq_some imported)
    obtain ⟨-, same⟩ := Prod.mk.inj pair
    rw [← same]
    exact isFlat_import names (List.mem_filter.mp member).1

theorem isLevel_qualifyType (names : u.FlatNames) {type : String} (isLevel : IsLevel type.toList) :
    IsLevel ((Scope.of u decl).qualifyType lib vars type).toList := by
  refine (TypeName.sameShape_mapIdentifiers (fun name flat => ?_) type).isLevel isLevel
  exact (isFlat_qualify names (by rwa [String.toList_ofList])).isLevel

/-- The methods of a level type are level. -/
theorem level_of_methods (level : u.Level) (isType : decl ∈ u.types) {m : MethodMember}
    (isMethod : m ∈ decl.spec.methods) : m.method.Level := by
  obtain ⟨member, isMember, same⟩ := List.mem_filterMap.mp isMethod
  have inner := (level.types decl isType).members member isMember
  split at same
  · cases same
    exact inner
  · cases same

/-- The key of a declared method can be taken apart. -/
theorem keyed_method (level : u.Level) (isType : decl ∈ u.types) {m : MethodMember}
    (isMethod : m ∈ decl.spec.methods) (declaredIn : String) :
    ((Scope.of u decl).method lib declaredIn m).Keyed := by
  have inner := level_of_methods level isType isMethod
  constructor
  · intro parenthesis
    exact absurd (inner.name.plain _ parenthesis) (by decide)
  · refine List.forall_mem_map.mpr fun p isParam => ?_
    exact isLevel_qualifyType level.flatNames (inner.params p isParam)

end Scope

/-! ### Type arguments -/

theorem TypeName.IsLevel.substitute {type : String} (level : IsLevel type.toList)
    {mapping : TypeName.Substitution} (each : ∀ entry ∈ mapping, IsLevel entry.2.toList)
    (skip : List String) : IsLevel (TypeName.substitute mapping skip type).toList := by
  refine (TypeName.sameShape_mapIdentifiers (fun name flat => ?_) type).isLevel level
  rcases mapping.apply_cases skip (String.ofList name) with same | ⟨-, entry⟩
  · rw [same, String.toList_ofList]
    exact flat.isLevel
  · exact each _ entry

theorem Method.Keyed.substituted {m : Method} (keyed : m.Keyed) {mapping : TypeName.Substitution}
    (each : ∀ entry ∈ mapping, IsLevel entry.2.toList) : (m.substituted mapping).Keyed :=
  ⟨keyed.name, List.forall_mem_map.mpr fun p isParam => (keyed.params p isParam).substitute each _⟩

theorem keyed_rootMethods : ∀ m ∈ rootMethods, m.Keyed := by
  have object : IsFlat "Object".toList := TypeName.isFlat_of_all (by decide) (by decide)
  simp only [rootMethods, List.forall_mem_cons, rootMethod]
  exact ⟨⟨by decide, List.forall_mem_singleton.mpr object.isLevel⟩, ⟨by decide, List.forall_mem_nil _⟩,
    ⟨by decide, List.forall_mem_nil _⟩, List.forall_mem_nil _⟩

namespace Library

variable {lib : Library}

/-- The type arguments of a supertype are level. -/
theorem isLevel_argumentsFor {u : CompilationUnit} {decl : TypeDecl} (level : u.Level)
    (isType : decl ∈ u.types) {ref : TypeRef} (isSuper : ref ∈ decl.spec.supertypes) :
    ∀ entry ∈ lib.argumentsFor (Scope.of u decl) ref, IsLevel entry.2.toList := by
  have object : IsFlat "Object".toList := TypeName.isFlat_of_all (by decide) (by decide)
  have args : ∀ arg ∈ (Scope.of u decl).typeArguments lib ref, IsLevel arg.toList :=
    List.forall_mem_map.mpr fun arg member =>
      Scope.isLevel_qualifyType level.flatNames (((level.types decl isType).supertypes ref isSuper).args arg member)
  intro entry member
  rcases TypeName.Substitution.ofArguments_mem (P := fun text => IsLevel text.toList) object.isLevel
    args entry member with nothing | ⟨-, isLevel⟩
  · cases nothing
  · exact isLevel

end Library

/-! ### What is kept -/

/-- The methods agree in their names and in the numbers of their parameters. -/
def Method.Resembles (m n : Method) : Prop :=
  m.name = n.name ∧ m.params.length = n.params.length

theorem Method.resembles_of_signature_eq {m n : Method} (keyed : m.Keyed) (keyed' : n.Keyed)
    (same : m.signature = n.signature) : m.Resembles n := by
  obtain ⟨names, erased⟩ := Method.eq_of_signature_eq keyed keyed' same
  refine ⟨names, ?_⟩
  simpa using congrArg List.length erased

namespace Library

/-- All keys can be taken apart, and every method that is met is represented by one that is kept. -/
structure Represents (kept met : List Method) : Prop where
  keyed : ∀ m ∈ kept, m.Keyed
  found : ∀ m ∈ met, ∃ k ∈ kept, k.Resembles m

theorem Represents.self {methods : List Method} (keyed : ∀ m ∈ methods, m.Keyed) :
    Represents methods methods :=
  ⟨keyed, fun m member => ⟨m, member, rfl, rfl⟩⟩

theorem Represents.append {kept met kept' met' : List Method} (first : Represents kept met)
    (second : Represents kept' met') : Represents (kept ++ kept') (met ++ met') := by
  refine ⟨List.forall_mem_append.mpr ⟨first.keyed, second.keyed⟩, List.forall_mem_append.mpr ⟨?_, ?_⟩⟩
  · intro m member
    obtain ⟨k, isKept, resembles⟩ := first.found m member
    exact ⟨k, List.mem_append_left _ isKept, resembles⟩
  · intro m member
    obtain ⟨k, isKept, resembles⟩ := second.found m member
    exact ⟨k, List.mem_append_right _ isKept, resembles⟩

theorem Represents.substituted {kept met : List Method} (represents : Represents kept met)
    {mapping : TypeName.Substitution} (each : ∀ entry ∈ mapping, IsLevel entry.2.toList) :
    Represents (kept.map (·.substituted mapping)) (met.map (·.substituted mapping)) := by
  refine ⟨List.forall_mem_map.mpr fun m member => (represents.keyed m member).substituted each,
    List.forall_mem_map.mpr fun m member => ?_⟩
  obtain ⟨k, isKept, names, params⟩ := represents.found m member
  refine ⟨_, List.mem_map_of_mem isKept, names, ?_⟩
  simpa [Method.substituted] using params

/-- What is dropped has the key of a method that stays. -/
theorem Represents.unseen {kept met : List Method} (represents : Represents kept met) :
    Represents (Method.unseen [] kept) met := by
  have sublist := Method.unseen_sublist [] kept
  refine ⟨fun m picked => represents.keyed m (sublist.mem picked), fun m member => ?_⟩
  obtain ⟨k, isKept, resembles⟩ := represents.found m member
  have isKey : k.signature ∈ (Method.unseen [] kept).map (·.signature) :=
    (Method.mem_signature_unseen k.signature).mpr ⟨List.mem_map_of_mem isKept, List.not_mem_nil⟩
  obtain ⟨first, picked, same⟩ := List.mem_map.mp isKey
  have like := Method.resembles_of_signature_eq (represents.keyed first (sublist.mem picked))
    (represents.keyed k isKept) same
  exact ⟨first, picked, like.1.trans resembles.1, like.2.trans resembles.2⟩

/-- **Loading represents what is met**, if the sources are level. -/
theorem keeps_represented {lib : Library}
    (level : ∀ X u decl, lib.declaration X = .ok (u, decl) → u.Level) :
    lib.Keeps (fun _ => True) fun _ => Represents where
  closed _ _ _ _ := trivial
  own X u decl _ declared := by
    obtain ⟨_, -, -, found⟩ := SourceLoader.declaration_eq_ok.mp declared
    refine .self (List.forall_mem_map.mpr fun m isMethod => ?_)
    exact Scope.keyed_method (level X u decl declared) (List.mem_of_find?_eq_some found) isMethod X
  rooted _ _ _ _ _ _ := .self keyed_rootMethods
  append _ _ _ _ _ first second := first.append second
  inherited X u decl _ declared ref isSuper _ kept met represents := by
    obtain ⟨_, -, -, found⟩ := SourceLoader.declaration_eq_ok.mp declared
    exact represents.substituted (isLevel_argumentsFor (level X u decl declared)
      (List.mem_of_find?_eq_some found) isSuper)
  picked _ _ _ represents := represents.unseen

end Library

/-! ### What is remembered -/

namespace Cache

variable {α : Type} {holds : α → Prop} {cache : Cache α}

/-- All kept values have the property. -/
def All (holds : α → Prop) (cache : Cache α) : Prop :=
  ∀ item ∈ cache.items, holds item.2.value

theorem All.delete (all : cache.All holds) (key : String) : (cache.delete key).All holds :=
  fun item member => all item (List.mem_filter.mp member).1

theorem All.getFor? (all : cache.All holds) (d : Disk) (key path : String) :
    (cache.getFor? d key path).2.All holds := by
  unfold Cache.getFor?
  split
  · exact all
  · split_ifs
    · exact all
    · exact all.delete key

theorem All.kept (all : cache.All holds) (d : Disk) (path : String) {value : α}
    (isGood : holds value) : (Reader.kept cache d path value).All holds := by
  unfold Reader.kept Cache.setFor
  cases d.fingerprint path with
  | error fault => exact all
  | ok state =>
    exact List.forall_mem_append.mpr ⟨all.delete path, List.forall_mem_singleton.mpr isGood⟩

end Cache

namespace Reader

variable {r : Reader} {d : Disk}

/-- Every remembered unit was read from a text. -/
def Genuine (r : Reader) : Prop :=
  r.units.All fun u => ∃ text, parse text = .ok u

theorem units_readText (r : Reader) (d : Disk) (path : String) :
    (r.readText d path).2.units = r.units := by
  unfold readText
  split
  · rfl
  · split
    · rfl
    · split <;> rfl

theorem Genuine.parseFile (genuine : r.Genuine) (d : Disk) (path : String) :
    (r.parseFile d path).2.Genuine := by
  unfold Reader.parseFile
  split
  · exact genuine
  · next clean _ =>
    have kept := Cache.All.getFor? genuine d clean clean
    split
    · next found =>
      rw [found] at kept
      exact kept
    · next units found =>
      rw [found] at kept
      have same := units_readText { r with units } d clean
      have still : (readText { r with units } d clean).2.Genuine := by
        unfold Genuine
        rw [same]
        exact kept
      split
      · next read =>
        rw [read] at still
        exact still
      · next text after read =>
        rw [read] at still
        split
        · exact still
        · next u parsed =>
          exact Cache.All.kept still d clean ⟨text, SourceLoader.parse_of_parseFile parsed⟩

end Reader

namespace SourceLoader

variable {l : SourceLoader} {d : Disk}

theorem reader_listing (l : SourceLoader) (d : Disk) (archive : String) :
    (l.listing d archive).2.reader = l.reader := by
  unfold listing
  split
  · rfl
  · split <;> rfl

theorem reader_search (d : Disk) (relative : String) (roots : List String) :
    ∀ l : SourceLoader, (l.search d relative roots).2.reader = l.reader := by
  induction roots with
  | nil => exact fun _ => rfl
  | cons root roots ih =>
    intro l
    have listed := l.reader_listing d root
    unfold search
    split
    · split
      · next found =>
        rw [found] at listed
        exact listed
      · next found =>
        rw [found] at listed
        split_ifs
        · exact listed
        · exact (ih _).trans listed
    · dsimp only
      split_ifs
      · rfl
      · exact ih l

theorem reader_locate (l : SourceLoader) (d : Disk) (name : String) :
    (l.locate d name).2.reader = l.reader := by
  have searched := reader_search d (relativePath name) l.roots l
  unfold locate
  split
  · rfl
  · split <;> next found => rw [found] at searched; exact searched

section Keeping

variable {holds : Reader → Prop} (keeps : ∀ r path, holds r → holds (r.parseFile d path).2)
include keeps

/-- A type is visited by parsing its file at most. -/
theorem holds_afterVisit (before : holds l.reader) (name : String) : holds (afterVisit d l name).reader := by
  have located : holds (l.locate d name).2.reader := by
    rw [reader_locate]
    exact before
  unfold afterVisit
  split
  · next place after found =>
    rw [found] at located
    unfold unitAt
    cases place with
    | file path => exact keeps _ path located
    | entry archive name =>
      dsimp only
      split <;> exact located
  · next found =>
    rw [found] at located
    exact located

/-- **What parsing keeps** of a reader, loading keeps. -/
theorem holds_load (before : holds l.reader) (name : String) : holds (l.load d name).2.reader := by
  unfold load remember
  refine List.foldlRecOn (motive := fun l : SourceLoader => holds l.reader) _ _ ?_
    fun l before name _ => holds_afterVisit keeps before name
  refine List.foldlRecOn (motive := fun l : SourceLoader => holds l.reader) _ _ before
    fun l before name _ => ?_
  rw [reader_locate]
  exact before

end Keeping

/-- What is remembered stays genuine. -/
theorem genuine_load (genuine : l.reader.Genuine) (d : Disk) (name : String) :
    (l.load d name).2.reader.Genuine :=
  holds_load (fun _ path genuine => genuine.parseFile d path) genuine name

/-- The loader of a source path after some loads, each from the disk as it was then. -/
def after (roots : List String) (history : List (Disk × String)) : SourceLoader :=
  history.foldl (fun l (d, name) => (l.load d name).2) (.ofRoots roots)

theorem genuine_after (roots : List String) (history : List (Disk × String)) :
    (after roots history).reader.Genuine :=
  List.foldlRecOn (motive := fun l : SourceLoader => l.reader.Genuine) _ _ (List.forall_mem_nil _)
    fun _ genuine (d, name) _ => genuine_load genuine d name

/-- The declarations of a genuine loader were read from texts. -/
theorem parsed_of_declaration (genuine : l.reader.Genuine) {X : String} {u : CompilationUnit}
    {decl : TypeDecl} (declared : (l.library d).declaration X = .ok (u, decl)) :
    ∃ text, parse text = .ok u := by
  obtain ⟨place, -, read, -⟩ := declaration_eq_ok.mp declared
  rcases List.mem_append.mp (mem_knownUnits_of_unitAt read) with known | new
  · obtain ⟨item, member, rfl⟩ := List.mem_map.mp known
    exact genuine item member
  · obtain ⟨text, -, parsed⟩ := List.mem_filterMap.mp new
    cases read : parse text with
    | error e =>
      rw [read] at parsed
      cases parsed
    | ok u' =>
      rw [read] at parsed
      cases parsed
      exact ⟨text, read⟩

/-- The sources of a genuine loader are level. -/
theorem level_of_declaration (genuine : l.reader.Genuine) {X : String} {u : CompilationUnit}
    {decl : TypeDecl} (declared : (l.library d).declaration X = .ok (u, decl)) : u.Level := by
  obtain ⟨text, parsed⟩ := parsed_of_declaration genuine declared
  exact level_of_parse parsed

/-! ### Loading -/

/-- **No declared method is lost.** The methods of a loaded type have different keys. Among them is one
for every method that is declared by the type itself or by a type that can be reached from it, with its
name and its number of parameters; and for a class those of the root type. -/
theorem load_declared (roots : List String) (history : List (Disk × String)) (d : Disk)
    (name : String) (s : Surface) (loaded : ((after roots history).load d name).1 = .ok s) :
    (s.methods.map (·.signature)).Nodup ∧
      (∀ Y u decl, ReflTransGen ((after roots history).library d).Extends name Y →
        ((after roots history).library d).declaration Y = .ok (u, decl) →
        ∀ m ∈ decl.spec.methods, ∃ k ∈ s.methods,
          k.name = m.method.name ∧ k.params.length = m.method.params.length) ∧
      ∀ u decl, ((after roots history).library d).declaration name = .ok (u, decl) →
        decl.spec.header.kind.isInterface = false →
        ∀ key ∈ [("equals", 1), ("hashCode", 0), ("toString", 0)], ∃ k ∈ s.methods,
          k.name = key.1 ∧ k.params.length = key.2 := by
  have genuine := genuine_after roots history
  generalize after roots history = l at loaded genuine ⊢
  have represents := keeps_load (Library.keeps_represented fun X u decl => level_of_declaration genuine)
    trivial loaded
  refine ⟨nodup_of_load loaded, ?_, ?_⟩
  · intro Y u decl reached declared m isMethod
    obtain ⟨o, met, same⟩ := met_of_reached reached declared isMethod
    obtain ⟨k, isKept, names, params⟩ := represents.found o met
    refine ⟨k, isKept, names.trans (congrArg Method.name same), ?_⟩
    rw [params, Method.params_length_of_skeleton same]
    exact List.length_map ..
  · intro u decl declared isClass key member
    have isRoot : ∃ m ∈ rootMethods, m.name = key.1 ∧ m.params.length = key.2 := by
      revert key
      decide
    obtain ⟨m, isRoot, name, length⟩ := isRoot
    obtain ⟨k, isKept, names, params⟩ := represents.found m (met_of_isRoot declared isClass m isRoot)
    exact ⟨k, isKept, names.trans name, params.trans length⟩

/-! ### Sources on a disk -/

/-- A disk with sources, each with the segments of its package. -/
def diskOf (files : List (List String × String × String)) : Disk :=
  ⟨files.flatMap fun (package, name, text) =>
    package.inits.tail.map (·, .dir) ++
      [(package ++ [name ++ ".java"], .file ⟨.text text, .given 0⟩)], [], 0⟩

/-- Two classes that inherit from each other. -/
def ringDisk : Disk :=
  diskOf [(["p"], "A", "package p; class A extends B<int[]> \x7b void run(A a) \x7b \x7d \x7d"),
    (["p"], "B", "package p; class B<T> extends A \x7b T put(T value, int n) \x7b \x7d \x7d")]

theorem load_declared_ring : ∃ s, ((after ["."] []).load ringDisk "p.A").1 = .ok s ∧
    ∃ k ∈ s.methods, k.name = "put" ∧ k.params.length = 2 := by
  have isSuper : "p.B" ∈ ((after ["."] []).library ringDisk).supertypesOf "p.A" := by
    decide +kernel
  have isMember : (((after ["."] []).library ringDisk).declaration "p.B").toOption.any (fun p =>
      decide (∃ m ∈ p.2.spec.methods, m.method.name = "put" ∧ m.method.params.length = 2)) = true := by
    decide +kernel
  have edge : ((after ["."] []).library ringDisk).Extends "p.A" "p.B" :=
    Library.extends_iff.mpr isSuper
  obtain ⟨_, _, own, -⟩ := id edge
  obtain ⟨s, loaded⟩ := load_of_declaration own
  obtain ⟨⟨u, decl⟩, declared, m, isMethod, isPut, two⟩ := exists_of_any isMember
  obtain ⟨-, kept, -⟩ := load_declared ["."] [] ringDisk "p.A" s loaded
  obtain ⟨k, isKept, names, params⟩ := kept "p.B" u decl (.single edge) declared m isMethod
  exact ⟨s, loaded, k, isKept, names.trans isPut, params.trans two⟩

/-- The root type has a source of its own, and a class that extends it. -/
def rootDisk : Disk :=
  diskOf [(["java", "lang"], "Object",
      "package java.lang; public class Object \x7b protected Object clone() \x7b \x7d \x7d"),
    (["p"], "A", "package p; public class A extends Object \x7b \x7d")]

/-- **The source of the root type is not looked at**, so what it declares beyond the methods of every
class is not inherited. -/
theorem root_source_ignored :
    (∃ u decl, ((after ["."] []).library rootDisk).declaration "p.A" = .ok (u, decl) ∧
      ∃ ref ∈ decl.spec.supertypes, (Scope.of u decl).qualifySupertype
        ((after ["."] []).library rootDisk) ref.qualifiedName = rootType) ∧
    (∃ u decl, ((after ["."] []).library rootDisk).declaration rootType = .ok (u, decl) ∧
      ∃ m ∈ decl.spec.methods, m.method.name = "clone" ∧ m.method.params.length = 0) ∧
    ∃ s, ((after ["."] []).load rootDisk "p.A").1 = .ok s ∧ ∀ k ∈ s.methods, k.name ≠ "clone" := by
  have alone : (((after ["."] []).library rootDisk).declaration "p.A").toOption.any (fun p =>
      decide (p.2.spec.methods.length = 0 ∧ p.2.spec.supertypes.length = 1 ∧
        ∀ ref ∈ p.2.spec.supertypes, (Scope.of p.1 p.2).qualifySupertype
          ((after ["."] []).library rootDisk) ref.qualifiedName = rootType)) = true := by
    decide
  have isMember : (((after ["."] []).library rootDisk).declaration rootType).toOption.any (fun p =>
      decide (∃ m ∈ p.2.spec.methods, m.method.name = "clone" ∧ m.method.params.length = 0)) =
      true := by
    decide +kernel
  obtain ⟨⟨u, decl⟩, declared, empty, single, isRoot⟩ := exists_of_any alone
  obtain ⟨⟨u', decl'⟩, declared', declares⟩ := exists_of_any isMember
  obtain ⟨ref, supertypes⟩ : ∃ ref, decl.spec.supertypes = [ref] := List.length_eq_one_iff.mp single
  have isSuper : ref ∈ decl.spec.supertypes := supertypes ▸ List.mem_singleton_self ref
  obtain ⟨s, loaded⟩ := load_of_declaration declared
  refine ⟨⟨u, decl, declared, ref, isSuper, isRoot ref isSuper⟩, ⟨u', decl', declared', declares⟩, s,
    loaded, fun k isKept => ?_⟩
  have seen := (keeps_load (Library.keeps_sees _) trivial loaded).1 k isKept
  cases seen with
  | own other isMethod =>
    cases declared.symm.trans other
    rw [List.length_eq_zero_iff.mp empty] at isMethod
    cases isMethod
  | rooted _ _ isRootMethod =>
    have names : ∀ m ∈ rootMethods, m.name ≠ "clone" := by decide
    exact names k isRootMethod
  | inherited other isSuper notRoot =>
    cases declared.symm.trans other
    exact absurd (isRoot _ isSuper) notRoot

end SourceLoader

end Forwarder
