/-
**Names in signatures and in clauses.** The supertypes of a type are qualified by their names, the types in
a signature by rewriting the names in their texts, and a result is chained if its erased text names the type
or one of its supertypes. All of this agrees: a method that returns what stands in a clause is chained.

* `TypeRef.ArgsLast` — a name with type arguments at its end alone; `TypeRef.erase_rewritten` — its text
  after names have been replaced, without the arguments.
* `Scope.erasedName` — what erasure leaves of a result that is written with a name;
  `Scope.names_qualifySupertype`, `Scope.names_own` — it names what a clause names, and the type itself.
* `Scope.typeParamNames_qualified` — type parameters keep their names.
* **`SourceLoader.chains_of_named`** — a method whose result is named like the type itself or like an entry
  of a clause is chained.
-/

import Forwarder.Proofs.Capture
import Forwarder.Proofs.Forwarding.Coverage
import Forwarder.Proofs.Loading.Retention
import Forwarder.Proofs.Source.Identifiers

open Forwarder.TypeName (IsFlat IsLevel Nested SameShape eraseFrom eraseFrom_nested eraseFrom_plain
  isDotted isNamePart rewriteFrom)

namespace Forwarder

open Source

/-! ### Erased texts of references -/

namespace Source

/-- A segment without type arguments. -/
def TypeSegment.isPlain : TypeSegment → Bool
  | .plain _ => true
  | .applied _ _ => false

theorem TypeSegment.eq_plain {segment : TypeSegment} (plain : segment.isPlain = true) :
    segment = .plain segment.name := by
  cases segment with
  | plain name => rfl
  | applied name args => cases plain

/-- A name with type arguments at its end alone, and without dimensions. -/
structure TypeRef.ArgsLast (type : TypeRef) : Prop where
  some_ : type.segments ≠ []
  plain : ∀ segment ∈ type.segments.dropLast, segment.isPlain = true
  dims : type.dims = 0

/-- All names in a reference are names, at any depth. -/
def TypeRef.Named (type : TypeRef) : Prop :=
  ∀ name ∈ type.identifiers, isName name = true

theorem TypeRef.Named.worded {type : TypeRef} (named : type.Named) : type.Worded :=
  forall_mem_identifiers.mp fun name member => isIdentifier_of_isName (named name member)

theorem isFlat_of_isName {name : String} (isWord : isName name = true) : IsFlat name.toList :=
  isFlat_of_isIdentifier (isIdentifier_of_isName isWord)

section Rewritten

variable {f : String → String}

/-- A segment is a name and what erasure drops, whatever is put for the names in that. -/
theorem TypeSegment.render_eq_append (keeps : ∀ name, IsFlat name → IsLevel (f (String.ofList name)).toList)
    {segment : TypeSegment} (args : ∀ arg ∈ segment.args, IsLevel arg.render.toList) :
    ∃ back, segment.render.toList = segment.name.toList ++ back ∧
      (∀ c ∈ back.head?, isNamePart c = false) ∧ back.head? ≠ some '.' ∧
      ∀ before, eraseFrom 0 (rewriteFrom f before [] back) = [] := by
  cases segment with
  | plain name => exact ⟨[], (List.append_nil _).symm, by simp, by simp, fun _ => rfl⟩
  | applied name args_ =>
    refine ⟨'<' :: ((renderArgs args_).toList ++ ['>']), ?_, ?_, by simp, fun before => ?_⟩
    · simp [TypeSegment.render, TypeSegment.name]
    · rintro _ ⟨⟩
      decide
    · have same := TypeName.sameShape_rewriteFrom keeps ('<' :: ((renderArgs args_).toList ++ ['>']))
        before [] (List.forall_mem_nil _)
      exact (same.blank 0).mpr (TypeName.eraseFrom_bracketed (nested_renderArgs args))

/-- Behind a point the names are left alone, and erasure drops the arguments at the end. -/
theorem erase_behind (keeps : ∀ name, IsFlat name → IsLevel (f (String.ofList name)).toList)
    (others : List TypeSegment) : ∀ first : TypeSegment,
      (∀ segment ∈ first :: others, isName segment.name = true ∧
        ∀ arg ∈ segment.args, IsLevel arg.render.toList) →
      (∀ segment ∈ (first :: others).dropLast, segment.isPlain = true) →
      eraseFrom 0 (rewriteFrom f (some '.') [] (first.render ++ renderMore others).toList) =
        (Text.join "." ((first :: others).map (·.name))).toList := by
  induction others with
  | nil =>
    intro first each _
    obtain ⟨isWord, args⟩ := each first List.mem_cons_self
    obtain ⟨back, render, stops, -, dropped⟩ := first.render_eq_append keeps args
    have text : (first.render ++ renderMore []).toList = first.name.toList ++ back := by
      rw [String.toList_append, render]
      exact List.append_nil _
    have flat := isFlat_of_isName isWord
    rw [text, TypeName.rewriteFrom_behind isWord stops none, eraseFrom_nested flat.isLevel.toNested,
      eraseFrom_plain flat.plain, dropped, List.append_nil]
    simp [Text.join]
  | cons next others ih =>
    intro first each plain
    rw [List.dropLast_cons_of_ne_nil (List.cons_ne_nil _ _)] at plain
    obtain ⟨isPlain, plainLater⟩ := List.forall_mem_cons.mp plain
    obtain ⟨name, rfl⟩ : ∃ name, first = .plain name := ⟨_, TypeSegment.eq_plain isPlain⟩
    obtain ⟨here, later⟩ := List.forall_mem_cons.mp each
    have isWord : isName name = true := here.1
    have text : ((TypeSegment.plain name).render ++ renderMore (next :: others)).toList =
        name.toList ++ '.' :: (next.render ++ renderMore others).toList := by
      simp [TypeSegment.render, renderMore]
    have stops : ∀ c ∈ ('.' :: (next.render ++ renderMore others).toList).head?, isNamePart c = false := by
      rintro _ ⟨⟩
      decide
    have flat := isFlat_of_isName isWord
    have point (rest : List Char) : eraseFrom 0 ('.' :: rest) = '.' :: eraseFrom 0 rest := rfl
    rw [text, TypeName.rewriteFrom_behind isWord stops none, TypeName.rewriteFrom_mark (by decide),
      eraseFrom_nested flat.isLevel.toNested, eraseFrom_plain flat.plain, point, ih next later plainLater]
    simp [Text.join, TypeSegment.name]

theorem not_isDotted_of_isName {name : String} (isWord : isName name = true) : isDotted name = false := by
  rw [isDotted, Bool.eq_false_iff, ne_eq, List.contains_iff_mem]
  exact point_not_mem isWord

/-- **The erased text of a reference after its names have been replaced.** A dotted name is left alone, and
for another one there is what is put for it. -/
theorem TypeRef.erase_rewritten (keeps : ∀ name, IsFlat name → IsFlat (f (String.ofList name)).toList)
    {type : TypeRef} (named : type.Named) (argsLast : type.ArgsLast) :
    TypeName.eraseType (TypeName.mapIdentifiers f type.render) =
      if isDotted type.qualifiedName then type.qualifiedName else f type.qualifiedName := by
  have level (name : List Char) (flat : IsFlat name) := (keeps name flat).isLevel
  cases type with
  | wildcard | unfinished | bounded => exact absurd rfl argsLast.some_
  | named annotations first others dims =>
    obtain rfl : dims = 0 := argsLast.dims
    have words := forall_mem_identifiers.mp named _ (TypeRef.self_mem_parts _)
    have worded := worded_named.mp named.worded
    have each : ∀ segment ∈ first :: others, isName segment.name = true ∧
        ∀ arg ∈ segment.args, IsLevel arg.render.toList := fun segment member =>
      ⟨words segment member, fun arg isArg => ((worded segment member).args arg isArg).isLevel⟩
    have render : (TypeRef.named annotations first others 0).render = first.render ++ renderMore others := by
      simp [TypeRef.render, brackets, Text.times]
    rw [TypeName.eraseType, TypeName.mapIdentifiers, String.toList_ofList, render]
    cases others with
    | nil =>
      obtain ⟨isWord, args⟩ := each first List.mem_cons_self
      obtain ⟨back, text, stops, noPoint, dropped⟩ := first.render_eq_append level args
      have qualified : (TypeRef.named annotations first [] 0).qualifiedName = first.name := by
        simp [TypeRef.qualifiedName, TypeRef.segments, Text.join]
      have whole : (first.render ++ renderMore []).toList = first.name.toList ++ back := by
        rw [String.toList_append, text]
        exact List.append_nil _
      have flat : IsFlat (f first.name).toList := by
        have flat := keeps _ (isFlat_of_isName isWord)
        rwa [String.ofList_toList] at flat
      rw [qualified, not_isDotted_of_isName isWord, if_neg Bool.false_ne_true, whole,
        TypeName.rewriteFrom_free isWord (by simp) stops noPoint none,
        eraseFrom_nested flat.isLevel.toNested, eraseFrom_plain flat.plain, dropped, List.append_nil,
        String.ofList_toList]
    | cons next others =>
      obtain ⟨name, rfl⟩ : ∃ name, first = .plain name :=
        ⟨_, TypeSegment.eq_plain (argsLast.plain first (by simp [TypeRef.segments]))⟩
      have plain : ∀ segment ∈ (next :: others).dropLast, segment.isPlain = true := by
        intro segment member
        refine argsLast.plain segment ?_
        rw [TypeRef.segments, List.dropLast_cons_of_ne_nil (List.cons_ne_nil _ _)]
        exact List.mem_cons_of_mem _ member
      have isWord : isName name = true := (each _ List.mem_cons_self).1
      have flat := isFlat_of_isName isWord
      have text : ((TypeSegment.plain name).render ++ renderMore (next :: others)).toList =
          name.toList ++ '.' :: (next.render ++ renderMore others).toList := by
        simp [TypeSegment.render, renderMore]
      have qualified : (TypeRef.named annotations (.plain name) (next :: others) 0).qualifiedName =
          name ++ "." ++ Text.join "." ((next :: others).map (·.name)) := by
        simp [TypeRef.qualifiedName, TypeRef.segments, Text.join, TypeSegment.name, String.append_assoc]
      have dotted : isDotted (name ++ "." ++ Text.join "." ((next :: others).map (·.name))) = true := by
        simp [isDotted]
      have point (rest : List Char) : eraseFrom 0 ('.' :: rest) = '.' :: eraseFrom 0 rest := rfl
      rw [qualified, dotted, if_pos rfl, text, TypeName.rewriteFrom_ahead isWord none,
        TypeName.rewriteFrom_mark (by decide), eraseFrom_nested flat.isLevel.toNested,
        eraseFrom_plain flat.plain, point,
        erase_behind level others next (fun segment member => each segment (List.mem_cons_of_mem _ member))
          plain]
      refine String.toList_injective ?_
      simp

end Rewritten

end Source

/-! ### Two ways to qualify -/

namespace Source.CompilationUnit

variable {u : CompilationUnit}

/-- The names of a file are flat if they are names. -/
theorem flatNames_of_isName (words : ∀ name ∈ u.identifiers, isName name = true) : u.FlatNames := by
  obtain ⟨front, -⟩ := List.forall_mem_append.mp words
  obtain ⟨ofPackage, ofImports⟩ := List.forall_mem_append.mp front
  constructor
  · intro package isPackage
    have each := List.forall_mem_flatMap.mp ofPackage package (Option.mem_toList.mpr isPackage)
    exact isFlat_join (fun part member => isFlat_of_isName (each part member)) (List.cons_ne_nil _ _)
  · intro i isImport segment member
    obtain ⟨isHead, areLater⟩ := List.forall_mem_cons.mp (List.forall_mem_flatMap.mp ofImports i isImport)
    rcases List.mem_cons.mp member with rfl | later
    · exact isFlat_of_isName isHead
    · obtain ⟨part, isPart, rfl⟩ := List.mem_map.mp later
      cases part with
      | none => exact TypeName.isFlat_of_all (by decide) (by decide)
      | some name => exact isFlat_of_isName (areLater name (List.mem_filterMap.mpr ⟨_, isPart, rfl⟩))

end Source.CompilationUnit

namespace Scope

variable {s : Scope} {lib : Library} {vars : List String} {name : String}

/-- Type variables matter only for their own names. -/
theorem qualify_of_not_mem (other : name ∉ vars) : s.qualify lib vars name = s.qualify lib [] name := by
  have same : s.reading vars name = s.reading [] name := by
    simp only [reading, isOwnMeaning, List.contains_eq_mem, other, List.not_mem_nil, decide_false]
  rw [qualify, qualify, same]

/-- What erasure leaves of a type in a signature that is written with a name: a dotted name is left alone. -/
def erasedName (s : Scope) (lib : Library) (vars : List String) (name : String) : String :=
  if isDotted name then name else s.qualify lib vars name

/-- **A supertype is named** by the erased text of a type that is written with its name. -/
theorem names_qualifySupertype (other : name ∉ vars) :
    Surface.names (s.qualifySupertype lib name) (s.erasedName lib vars name) = true := by
  rw [qualifySupertype, erasedName, qualify_of_not_mem other, Surface.names, Bool.or_eq_true]
  by_cases dotted : isDotted name = true
  · rw [if_pos dotted, if_pos dotted]
    exact .inl (beq_self_eq_true _)
  · rw [if_neg dotted, if_neg dotted]
    dsimp only
    split_ifs with known
    · -- The name was not found, so a well-known type is named by its simple name.
      have free : '.' ∉ name.toList := by simpa [isDotted] using dotted
      have simple : TypeName.simpleName ("java.lang" ++ "." ++ name) = name :=
        TypeName.simpleName_append "java.lang" free
      have whole : "java.lang." ++ name = "java.lang" ++ "." ++ name := rfl
      rw [known.1, whole, simple, Bool.eq_false_iff.mpr dotted]
      exact .inr (by simp)
    · exact .inl (beq_self_eq_true _)

/-- **The type itself is named** by the erased text of a type that is written with its simple name. -/
theorem names_own {type : String} (placed : s.packageName = TypeName.packageOf type)
    (own : s.ownName = TypeName.simpleName type) (isWord : isName s.ownName = true) :
    Surface.names type (s.erasedName lib vars s.ownName) = true := by
  have simple : Surface.names type s.ownName = true := by
    rw [Surface.names, not_isDotted_of_isName isWord, own]
    simp
  rw [erasedName, not_isDotted_of_isName isWord, if_neg Bool.false_ne_true, qualify, reading]
  by_cases kept : s.isOwnMeaning vars s.ownName = true
  · rw [if_pos kept]
    exact simple
  rw [if_neg kept, if_pos rfl]
  dsimp only
  rw [inPackage]
  split_ifs with unnamed
  · exact simple
  · have some_ : Text.beforeLast '.' type.toList ≠ [] := by
      intro empty
      rw [placed, TypeName.packageOf, empty] at unnamed
      exact unnamed rfl
    have whole : s.packageName ++ "." ++ s.ownName = type := by
      refine String.toList_injective ?_
      rw [placed, own, TypeName.packageOf, TypeName.simpleName]
      simpa using Text.beforeLast_append_afterLast some_
    rw [whole, Surface.names, beq_self_eq_true, Bool.true_or]

/-- What is left is the name itself or has a qualifier. -/
theorem erasedName_cases (u : CompilationUnit) (decl : TypeDecl) (lib : Library) (vars : List String)
    (name : String) : (Scope.of u decl).erasedName lib vars name = name ∨
      isDotted ((Scope.of u decl).erasedName lib vars name) = true := by
  have dotted (package : String) : isDotted (package ++ "." ++ name) = true := by simp [isDotted]
  rw [erasedName]
  by_cases hasPoint : isDotted name = true
  · rw [if_pos hasPoint]
    exact .inl rfl
  rw [if_neg hasPoint, qualify, reading]
  by_cases kept : (Scope.of u decl).isOwnMeaning vars name = true
  · rw [if_pos kept]
    exact .inl rfl
  rw [if_neg kept]
  by_cases own : name = (Scope.of u decl).ownName
  · rw [if_pos own]
    dsimp only
    rw [inPackage]
    split_ifs
    · exact .inl rfl
    · exact .inr (dotted _)
  rw [if_neg own]
  cases imported : (Scope.of u decl).imports.lookup name with
  | some qualified =>
    dsimp only
    obtain ⟨i, -, pair⟩ := List.mem_map.mp (mem_of_lookup_eq_some imported)
    obtain ⟨simple, rfl⟩ := Prod.mk.inj pair
    by_cases hasPoint : isDotted i.name = true
    · exact .inr hasPoint
    · -- An import without a point imports its own name.
      have free : '.' ∉ i.name.toList := by simpa [isDotted] using hasPoint
      rw [TypeName.simpleName_plain free] at simple
      exact .inl simple
  | none =>
    dsimp only
    cases found : List.find? lib.holds _ with
    | none => exact .inl rfl
    | some candidate =>
      obtain ⟨package, -, rfl⟩ := List.mem_map.mp (List.mem_of_find?_eq_some found)
      exact .inr (dotted package)

theorem erasedName_ne_empty {u : CompilationUnit} {decl : TypeDecl} (some_ : name ≠ "") :
    (Scope.of u decl).erasedName lib vars name ≠ "" := by
  rcases erasedName_cases u decl lib vars name with same | hasPoint
  · rwa [same]
  · intro empty
    rw [empty] at hasPoint
    cases hasPoint

/-- Names without a point are not reached by qualifying another name. -/
theorem erasedName_not_mem {u : CompilationUnit} {decl : TypeDecl} {names : List String}
    (areNames : ∀ x ∈ names, isName x = true) (other : name ∉ names) :
    (Scope.of u decl).erasedName lib vars name ∉ names := by
  rcases erasedName_cases u decl lib vars name with same | hasPoint
  · rwa [same]
  · intro member
    rw [not_isDotted_of_isName (areNames _ member)] at hasPoint
    cases hasPoint

/-- **Type parameters keep their names** when their texts are qualified. -/
theorem typeParamNames_qualified {params : List TypeParam} (words : ∀ p ∈ params, isName p.name = true)
    (kept : ∀ p ∈ params, s.qualify lib vars p.name = p.name) :
    TypeName.typeParamNames (params.map fun p => s.qualifyType lib vars p.render) =
      params.map (·.name) := by
  rw [TypeName.typeParamNames, List.filterMap_map, ← List.filterMap_eq_map]
  refine List.filterMap_congr fun p member => ?_
  have declares : Declares p.name p.render := ⟨words p member, p.render_eq_append⟩
  have renamed := declares.mapIdentifiers ((kept p member).symm ▸ words p member)
  rw [kept p member] at renamed
  simp only [Function.comp_apply, qualifyType]
  exact renamed.fields_head

/-- A type variable stands for itself. -/
theorem qualify_var (isVar : name ∈ vars ∨ name ∈ s.typeVars) : s.qualify lib vars name = name := by
  have own : s.isOwnMeaning vars name = true := by
    rcases isVar with isVar | isVar <;> simp [isOwnMeaning, isVar]
  rw [qualify, reading, if_pos own]

end Scope

/-! ### Chained results -/

namespace Source

variable {u : CompilationUnit} {decl : TypeDecl} {member : MethodMember}

/-- All identifiers of a declaration in a file are names. -/
theorem isName_of_spec (words : ∀ name ∈ u.identifiers, isName name = true) (isType : decl ∈ u.types) :
    isName decl.spec.header.name = true ∧
      (∀ p ∈ decl.spec.header.typeParams, isName p.name = true) ∧
      ∀ member ∈ decl.spec.methods, member.method.returns.Named ∧
        ∀ p ∈ member.method.typeParams, isName p.name = true := by
  have ofSpec := List.forall_mem_flatMap.mp (List.forall_mem_append.mp words).2 decl isType
  obtain ⟨isHead, others⟩ := List.forall_mem_cons.mp ofSpec
  obtain ⟨front, ofMethods⟩ := List.forall_mem_append.mp others
  have ofParams := List.forall_mem_flatMap.mp (List.forall_mem_append.mp front).1
  refine ⟨isHead, fun p member => ofParams p member p.name List.mem_cons_self, fun member isMethod => ?_⟩
  have inMethod := (List.forall_mem_cons.mp (List.forall_mem_flatMap.mp ofMethods member isMethod)).2
  obtain ⟨front, -⟩ := List.forall_mem_append.mp inMethod
  obtain ⟨front, -⟩ := List.forall_mem_append.mp front
  obtain ⟨ofOwn, ofReturns⟩ := List.forall_mem_append.mp front
  exact ⟨ofReturns, fun p member => List.forall_mem_flatMap.mp ofOwn p member p.name List.mem_cons_self⟩

end Source

/-- The name of a reference with arguments at its end is not empty. -/
theorem Source.TypeRef.Named.some_ {type : TypeRef} (named : type.Named) (argsLast : type.ArgsLast) :
    type.qualifiedName ≠ "" := by
  have flat : IsFlat type.qualifiedName.toList := by
    refine isFlat_join (List.forall_mem_map.mpr fun segment member => ?_) (by simpa using argsLast.some_)
    exact isFlat_of_isName (forall_mem_identifiers.mp named type type.self_mem_parts segment member)
  intro empty
  rw [empty] at flat
  exact flat.ne_nil rfl

/-- What erasure leaves of the result of a method. -/
theorem Scope.eraseType_returns {u : CompilationUnit} (words : ∀ x ∈ u.identifiers, isName x = true)
    (decl : TypeDecl) (lib : Library) (declaredIn : String) {member : MethodMember}
    (named : member.method.returns.Named) (argsLast : member.method.returns.ArgsLast)
    (dims : member.method.dims = 0) :
    TypeName.eraseType ((Scope.of u decl).method lib declaredIn member).returns =
      (Scope.of u decl).erasedName lib (member.method.typeParams.map (·.name))
        member.method.returns.qualifiedName := by
  have text : member.method.returnText = member.method.returns.render := by
    rw [MethodDecl.returnText, dims]
    exact String.append_empty
  have keeps (name : List Char) (flat : IsFlat name) : IsFlat ((Scope.of u decl).qualify lib
      (member.method.typeParams.map (·.name)) (String.ofList name)).toList :=
    Scope.isFlat_qualify (CompilationUnit.flatNames_of_isName words) (by rwa [String.toList_ofList])
  show TypeName.eraseType (TypeName.mapIdentifiers _ member.method.returnText) = _
  rw [text, TypeRef.erase_rewritten keeps named argsLast, erasedName]

/-- A result is chained if what erasure leaves of it names the type or a supertype, and no type variable. -/
theorem Forwarding.chains_of_names {s : Surface} {m : Method} {erased X : String}
    (isErased : TypeName.eraseType m.returns = erased) (some_ : erased ≠ "")
    (member : X ∈ s.name :: s.supertypes) (names : Surface.names X erased = true)
    (notOwn : erased ∉ TypeName.typeParamNames m.typeParams)
    (notVar : erased ∉ TypeName.typeParamNames s.typeParams) :
    s.isA m.returns = true ∧ chains s m = true := by
  have isA : s.isA m.returns = true := by
    rw [Surface.isA, isErased, Bool.and_eq_true, bne_iff_ne, List.any_eq_true]
    exact ⟨some_, X, member, names⟩
  have again : s.isA erased = true := by
    rw [← isA, Surface.isA, Surface.isA, isErased, ← isErased, TypeName.eraseType_idem]
  refine ⟨isA, ?_⟩
  rw [chains, isErased]
  simp [notOwn, notVar, again]

namespace SourceLoader

/-- **Results that are chained.** Where a type is loaded from a file of its own package whose identifiers are
names, each of its methods is chained that returns what is written with the name of an entry of its
clauses, or with its own simple name, with type arguments at the end alone and without dimensions; unless
this is the name of a type variable. In whatever way the name is qualified, the surface is one of this
type. -/
theorem chains_of_named (l : SourceLoader) (d : Disk) (name : String) (s : Surface) (u : CompilationUnit)
    (decl : TypeDecl) (loaded : (l.load d name).1 = .ok s)
    (declared : (l.library d).declaration name = .ok (u, decl))
    (placed : u.packageName.getD "" = TypeName.packageOf name)
    (words : ∀ x ∈ u.identifiers, isName x = true) (member : MethodMember)
    (isMethod : member ∈ decl.spec.methods) (argsLast : member.method.returns.ArgsLast)
    (dims : member.method.dims = 0)
    (written : (∃ ref ∈ decl.spec.supertypes, ref.qualifiedName = member.method.returns.qualifiedName) ∨
      member.method.returns.qualifiedName = TypeName.simpleName name)
    (notVar : member.method.returns.qualifiedName ∉ decl.spec.typeParamNames)
    (notOwn : member.method.returns.qualifiedName ∉ member.method.typeParams.map (·.name)) :
    s.isA ((Scope.of u decl).method (l.library d) name member).returns = true ∧
      Forwarding.chains s ((Scope.of u decl).method (l.library d) name member) = true := by
  obtain ⟨-, -, -, found⟩ := declaration_eq_ok.mp declared
  have own : decl.spec.header.name = TypeName.simpleName name := by
    simpa using List.find?_some found
  obtain ⟨isHead, areParams, ofMethods⟩ := isName_of_spec words (List.mem_of_find?_eq_some found)
  obtain ⟨named, areOwn⟩ := ofMethods member isMethod
  obtain ⟨isName_, typeParams⟩ := head_of_load loaded
  obtain ⟨root, supertypes⟩ := supertypes_of_load loaded
  have erased := Scope.eraseType_returns words decl (l.library d) name named argsLast dims
  have ownNames : TypeName.typeParamNames ((Scope.of u decl).method (l.library d) name member).typeParams =
      member.method.typeParams.map (·.name) :=
    Scope.typeParamNames_qualified areOwn fun p isParam =>
      Scope.qualify_var (.inl (List.mem_map_of_mem isParam))
  have varNames : TypeName.typeParamNames s.typeParams = decl.spec.typeParamNames := by
    rw [typeParams, Library.typeParamsOf, declared]
    exact Scope.typeParamNames_qualified areParams fun p isParam =>
      Scope.qualify_var (.inr (List.mem_map_of_mem isParam))
  -- The name that the result is known under: that of an entry of the clauses, or of the type itself.
  obtain ⟨X, isKnown, names⟩ : ∃ X ∈ s.name :: s.supertypes, Surface.names X
      ((Scope.of u decl).erasedName (l.library d) (member.method.typeParams.map (·.name))
        member.method.returns.qualifiedName) = true := by
    rcases written with ⟨ref, isSuper, sameName⟩ | isOwn
    · refine ⟨_, List.mem_cons_of_mem _ ?_, Scope.names_qualifySupertype notOwn⟩
      by_cases isRoot : (Scope.of u decl).qualifySupertype (l.library d)
          member.method.returns.qualifiedName = rootType
      · rwa [isRoot]
      · exact supertypes _ ⟨u, decl, declared, ref, isSuper, by rw [sameName], isRoot⟩
    · refine ⟨name, isName_ ▸ List.mem_cons_self, ?_⟩
      rw [isOwn, ← own]
      exact Scope.names_own placed own isHead
  refine Forwarding.chains_of_names erased (Scope.erasedName_ne_empty (named.some_ argsLast)) isKnown names
    ?_ ?_
  · rw [ownNames]
    exact Scope.erasedName_not_mem (List.forall_mem_map.mpr areOwn) notOwn
  · rw [varNames]
    exact Scope.erasedName_not_mem (List.forall_mem_map.mpr areParams) notVar

/-- An interface that extends an imported one, which is not on the source path. -/
def linkedDisk : Disk :=
  diskOf [(["p"], "Link",
    "package p; import q.Chain; interface Link<T> extends Chain<T> { <U> Chain<U> next(U u); }")]

theorem chains_of_named_link : ∃ s u decl, ((ofRoots ["."]).load linkedDisk "p.Link").1 = .ok s ∧
    ((ofRoots ["."]).library linkedDisk).declaration "p.Link" = .ok (u, decl) ∧
    ∃ member ∈ decl.spec.methods, member.method.returns.qualifiedName = "Chain" ∧
      ((Scope.of u decl).method ((ofRoots ["."]).library linkedDisk) "p.Link" member).returns =
        "q.Chain<U>" ∧
      Forwarding.chains s
        ((Scope.of u decl).method ((ofRoots ["."]).library linkedDisk) "p.Link" member) = true := by
  have computed : (((ofRoots ["."]).library linkedDisk).declaration "p.Link").toOption.any (fun p =>
      decide (p.1.packageName.getD "" = TypeName.packageOf "p.Link" ∧
        (∀ x ∈ p.1.identifiers, isName x = true) ∧ ∃ member ∈ p.2.spec.methods,
          (member.method.returns.segments.isEmpty = false ∧
            (∀ segment ∈ member.method.returns.segments.dropLast, segment.isPlain = true) ∧
            member.method.returns.dims = 0) ∧ member.method.dims = 0 ∧
          (∃ ref ∈ p.2.spec.supertypes, ref.qualifiedName = member.method.returns.qualifiedName) ∧
          member.method.returns.qualifiedName ∉ p.2.spec.typeParamNames ∧
          member.method.returns.qualifiedName ∉ member.method.typeParams.map (·.name) ∧
          member.method.returns.qualifiedName = "Chain" ∧
          ((Scope.of p.1 p.2).method ((ofRoots ["."]).library linkedDisk) "p.Link" member).returns =
            "q.Chain<U>")) = true := by
    decide +kernel
  obtain ⟨⟨u, decl⟩, declared, placed, words, member, isMethod, ⟨some_, plain, noDims⟩, dims, written,
    notVar, notOwn, isName_, returns⟩ := exists_of_any computed
  obtain ⟨s, loaded⟩ := load_of_declaration declared
  have argsLast : member.method.returns.ArgsLast := ⟨by simpa using some_, plain, noDims⟩
  have chained := chains_of_named (ofRoots ["."]) linkedDisk "p.Link" s u decl loaded declared placed words
    member isMethod argsLast dims (.inl written) notVar notOwn
  exact ⟨s, u, decl, loaded, declared, member, isMethod, isName_, returns, chained.2⟩

end SourceLoader

end Forwarder
