/-
**The identifiers of a source file** that may be written into generated files: those of its package, its
imports, and the heads of its types and of their methods. If all of them are tame, so are the texts that
are made of them, and the declaration in the file.

* `CompilationUnit.identifiers` — the identifiers of a file.
* `tame_render`, `TypeParam.tame_render`, … — the texts of its types.
* `Decoration.Tame` — what a declaration says is tame.
* **`Decoration.tame_of_extract`** — so it is if the identifiers of its file are.
-/

import Forwarder.Proofs.Decoration.Tame
import Forwarder.Proofs.Decoration.Texts
import Forwarder.Proofs.Loading.Search
import Forwarder.Proofs.Source.References
import Forwarder.Proofs.Source.TypeText

namespace Forwarder

namespace Source

/-! ### Identifiers -/

/-- The names in a reference, at any depth. -/
def TypeRef.identifiers (type : TypeRef) : List String :=
  type.parts.flatMap fun part => part.segments.map (·.name)

/-- The name of a type parameter and the names in its bounds. -/
def TypeParam.identifiers (p : TypeParam) : List String :=
  p.name :: p.bounds.flatMap (·.identifiers)

/-- The name of a parameter and the names in its type. -/
def FormalParameter.identifiers (p : FormalParameter) : List String :=
  p.name :: p.type.identifiers

/-- The names in the head of a method. -/
def MethodDecl.identifiers (m : MethodDecl) : List String :=
  m.name :: (m.typeParams.flatMap (·.identifiers) ++ m.returns.identifiers ++
    m.params.flatMap (·.identifiers) ++ m.throws.flatMap (·.identifiers))

/-- The names in the head of a type and in those of its methods. -/
def TypeSpec.identifiers (t : TypeSpec) : List String :=
  t.header.name :: (t.header.typeParams.flatMap (·.identifiers) ++
    t.supertypes.flatMap (·.identifiers) ++ t.methods.flatMap (·.method.identifiers))

/-- The names in an import, without the star. -/
def ImportDecl.identifiers (i : ImportDecl) : List String :=
  i.head :: i.tail.filterMap id

/-- The names in the package declaration, the imports and the types of a file. -/
def CompilationUnit.identifiers (u : CompilationUnit) : List String :=
  u.packageDecl.toList.flatMap (fun name => name.head :: name.tail) ++
    u.imports.flatMap (·.identifiers) ++ u.types.flatMap (·.spec.identifiers)

/-! ### Types -/

theorem forall_mem_identifiers {holds : String → Prop} {type : TypeRef} :
    (∀ name ∈ type.identifiers, holds name) ↔
      ∀ part ∈ type.parts, ∀ segment ∈ part.segments, holds segment.name := by
  simp only [TypeRef.identifiers, List.forall_mem_flatMap, List.forall_mem_map]

theorem tame_brackets {text : String} (tame : IsTame text) (dims : Nat) :
    IsTame (text ++ brackets dims) := by
  induction dims generalizing text with
  | zero => simpa [brackets, Text.times] using tame
  | succ dims ih =>
    rw [brackets_succ, ← String.append_assoc]
    exact ih (tame.before (by decide))

theorem tame_renderMore {segments : List TypeSegment} {text : String} (tame : IsTame text)
    (each : ∀ segment ∈ segments, IsTame segment.render) : IsTame (text ++ renderMore segments) := by
  induction segments generalizing text with
  | nil => simpa [renderMore] using tame
  | cons segment segments ih =>
    obtain ⟨first, others⟩ := List.forall_mem_cons.mp each
    rw [renderMore, ← String.append_assoc, ← String.append_assoc]
    exact ih (tame.around first (by decide)) others

/-- **The text of a type** is tame if its names are. -/
theorem tame_render (type : TypeRef) (tame : ∀ name ∈ type.identifiers, IsTame name) :
    IsTame type.render := by
  refine TypeRef.holds
    (P := fun type => (∀ name ∈ type.identifiers, IsTame name) → IsTame type.render)
    (Q := fun segment => IsTame segment.name →
      (∀ arg ∈ segment.args, ∀ name ∈ arg.identifiers, IsTame name) → IsTame segment.render)
    ?_ ?_ ?_ ?_ ?_ ?_ type tame
  · intro annotations dims _
    rw [TypeRef.render]
    exact tame_brackets (by decide) dims
  · intro annotations bound dims _
    rw [TypeRef.render]
    exact tame_brackets (by decide) dims
  · intro annotations bound type dims ih tame
    have inner := forall_mem_identifiers.mpr
      (forall_mem_parts_bounded.mp (forall_mem_identifiers.mp tame)).2
    have keyword : IsMark ("? " ++ bound.keyword ++ " ") := by
      cases bound <;> decide
    rw [TypeRef.render]
    exact tame_brackets ((ih inner).behind keyword) dims
  · intro annotations first others dims ihFirst ihOthers tame
    obtain ⟨names, inner⟩ := forall_mem_parts_named.mp (forall_mem_identifiers.mp tame)
    have each : ∀ segment ∈ first :: others, IsTame segment.render := fun segment member =>
      List.forall_mem_cons.mpr ⟨ihFirst, ihOthers⟩ segment member (names segment member)
        fun arg isArg => forall_mem_identifiers.mpr (inner segment member arg isArg)
    obtain ⟨ofFirst, ofOthers⟩ := List.forall_mem_cons.mp each
    rw [TypeRef.render]
    exact tame_brackets (tame_renderMore ofFirst ofOthers) dims
  · exact fun name tame _ => tame
  · intro name args ih tame inner
    have ofArgs : IsTame (renderArgs args) := by
      rw [renderArgs_eq]
      exact .join (by decide) (List.forall_mem_map.mpr fun arg member => ih arg member (inner arg member))
    rw [TypeSegment.render]
    exact (tame.around ofArgs (by decide)).before (by decide)

/-- The type arguments of a type. -/
theorem tame_of_typeArguments {type arg : TypeRef} (tame : ∀ name ∈ type.identifiers, IsTame name)
    (member : arg ∈ type.typeArguments) : ∀ name ∈ arg.identifiers, IsTame name := by
  rw [TypeRef.typeArguments] at member
  cases last : type.segments.getLast? with
  | none =>
    rw [last] at member
    cases member
  | some segment =>
    rw [last] at member
    have isSegment := List.mem_of_getLast? last
    cases type with
    | wildcard | unfinished | bounded => cases isSegment
    | named annotations first others dims =>
      exact forall_mem_identifiers.mpr
        ((forall_mem_parts_named.mp (forall_mem_identifiers.mp tame)).2 segment isSegment arg member)

theorem TypeParam.tame_render (p : TypeParam) (tame : ∀ name ∈ p.identifiers, IsTame name) :
    IsTame p.render := by
  obtain ⟨ofName, ofBounds⟩ := List.forall_mem_cons.mp tame
  rw [TypeParam.render]
  split_ifs
  · exact ofName
  · refine ofName.around (.join (by decide) (List.forall_mem_map.mpr fun bound member => ?_)) (by decide)
    exact Source.tame_render bound (List.forall_mem_flatMap.mp ofBounds bound member)

theorem FormalParameter.tame_typeText (p : FormalParameter) (tame : ∀ name ∈ p.identifiers, IsTame name) :
    IsTame p.typeText :=
  tame_brackets (Source.tame_render p.type (List.forall_mem_cons.mp tame).2) _

/-! ### Qualified names -/

theorem ImportDecl.tame_segments {i : ImportDecl} (tame : ∀ name ∈ i.identifiers, IsTame name) :
    ∀ segment ∈ i.segments, IsTame segment := by
  obtain ⟨ofHead, ofTail⟩ := List.forall_mem_cons.mp tame
  refine List.forall_mem_cons.mpr ⟨ofHead, List.forall_mem_map.mpr fun segment member => ?_⟩
  cases segment with
  | none => decide
  | some name => exact ofTail name (List.mem_filterMap.mpr ⟨some name, member, rfl⟩)

theorem ImportDecl.tame_target {i : ImportDecl} (tame : ∀ name ∈ i.identifiers, IsTame name) :
    IsTame i.target := by
  refine .join (by decide) fun segment member => tame_segments tame segment ?_
  split at member
  · exact List.dropLast_subset _ member
  · exact member

/-- What a file is called and refers to is tame. -/
structure CompilationUnit.Tame (u : CompilationUnit) : Prop where
  package : ∀ name, u.packageName = some name → IsTame name
  imports : ∀ i ∈ u.imports, ∀ name ∈ i.identifiers, IsTame name
  types : ∀ decl ∈ u.types, ∀ name ∈ decl.spec.identifiers, IsTame name

theorem CompilationUnit.tame_of_identifiers {u : CompilationUnit}
    (tame : ∀ name ∈ u.identifiers, IsTame name) : u.Tame := by
  obtain ⟨ofFront, ofTypes⟩ := List.forall_mem_append.mp tame
  obtain ⟨ofPackage, ofImports⟩ := List.forall_mem_append.mp ofFront
  refine ⟨fun name isPackage => ?_, List.forall_mem_flatMap.mp ofImports,
    List.forall_mem_flatMap.mp ofTypes⟩
  obtain ⟨dotted, isDotted, rfl⟩ := Option.map_eq_some_iff.mp isPackage
  refine .join (by decide) (List.forall_mem_flatMap.mp ofPackage dotted ?_)
  rw [isDotted]
  exact List.mem_singleton_self _

end Source

open Source

/-- What a declaration says is tame. -/
structure Decoration.Tame (d : Decoration) : Prop where
  className : IsTame d.className
  packageName : IsTame d.packageName
  decorated : IsTame d.decorated
  typeParams : ∀ param ∈ d.typeParams, IsTame param
  typeArgs : ∀ arg ∈ d.typeArgs, IsTame arg

/-- **The declaration in a file** whose identifiers are tame. -/
theorem Decoration.tame_of_extract {file : String} {u : CompilationUnit} {d : Decoration} (tame : u.Tame)
    (accepted : extract file u = .present d) : d.Tame := by
  obtain ⟨decl, packageName, capability, target, decorated, isDecl, isPackage, isCapability, isTarget,
    isImport, rfl⟩ := extract_eq_present accepted
  have ofType := tame.types decl (List.mem_of_find?_eq_some isDecl)
  simp only [TypeSpec.identifiers, List.forall_mem_cons, List.forall_mem_append,
    List.forall_mem_flatMap] at ofType
  obtain ⟨ofName, ⟨ofParams, ofSupertypes⟩, -⟩ := ofType
  have ofCapability := ofSupertypes capability
    (List.mem_append_right _ (List.mem_of_find?_eq_some isCapability))
  have ofTarget := tame_of_typeArguments ofCapability (eq_of_target? isTarget).1
  obtain ⟨i, member, rfl⟩ := List.mem_map.mp
    (mem_firstOccurrences.mp (List.mem_of_find?_eq_some isImport))
  refine ⟨ofName, tame.package packageName isPackage, ImportDecl.tame_target (tame.imports i member),
    List.forall_mem_map.mpr fun p isParam => p.tame_render (ofParams p isParam),
    List.forall_mem_map.mpr fun arg isArg => tame_render arg (tame_of_typeArguments ofTarget isArg)⟩

end Forwarder
