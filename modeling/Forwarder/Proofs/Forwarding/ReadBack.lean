/-
**Generated files are read back.** The file that is synthesized for a declaration and a loaded surface
is accepted by the reader of sources, and what is read off it is what was generated.

* `CompilationUnit.LegibleHead` — the names in the head of a declaration are plain.
* `Decoration.Legible` — the texts of a declaration are names and types.
* `Forwarding.sound_unit` — the generated file is put together from names and types.
* `Forwarding.ReadBack` — a file that was read is the generated one.
* **`Forwarding.synthesize_readBack`** — the generated file is read back.
-/

import Forwarder.Loading.SourceLoader
import Forwarder.Proofs.Decoration.Texts
import Forwarder.Proofs.Emit.ReadBack
import Forwarder.Proofs.Forwarding.Coverage
import Forwarder.Proofs.Loading.Agreement
import Forwarder.Proofs.Loading.Reach
import Forwarder.Proofs.Loading.Texts

namespace Forwarder

open Relation (ReflTransGen)
open Source Emit

/-! ### Parts of type references -/

section Parts

variable {vars : String → Prop} {type : TypeRef}

theorem Source.TypeRef.Clean.segment (clean : type.Clean vars) {segment : TypeSegment}
    (member : segment ∈ type.segments) : segment.Clean vars := by
  cases type with
  | wildcard => cases member
  | unfinished => cases member
  | bounded => cases member
  | named _ first others _ =>
    rcases List.mem_cons.mp member with rfl | later
    · exact clean.2.1
    · exact moreClean_iff.mp clean.2.2 segment later

theorem Source.TypeRef.Clean.typeArguments (clean : type.Clean vars) :
    ∀ arg ∈ type.typeArguments, arg.Clean vars := by
  intro arg member
  rw [TypeRef.typeArguments] at member
  split at member
  · cases member
  · next segment last =>
    have cleanSegment := clean.segment (List.mem_of_getLast? last)
    cases segment with
    | plain name => cases member
    | applied name args => exact argsClean_iff.mp cleanSegment.2 arg member

theorem Source.TypeRef.Clean.simpleName (clean : type.Clean vars) (named : type.isNamed = true) :
    IsPlain type.simpleName := by
  rw [TypeRef.simpleName]
  split
  · next none_ =>
    rw [TypeRef.isNamed, List.getLast?_eq_none_iff.mp none_] at named
    cases named
  · next segment last =>
    have cleanSegment := clean.segment (List.mem_of_getLast? last)
    cases segment with
    | plain name => exact cleanSegment
    | applied name args => exact cleanSegment.1

end Parts

/-! ### Declarations -/

theorem IsQualified.isDotted {text : String} (isQualified : IsQualified text) : IsDotted text := by
  obtain ⟨head, tail, plain, same⟩ := isQualified
  exact ⟨head, tail, fun part member => (plain part member).1, same⟩

theorem IsQualified.isImport {text : String} (isQualified : IsQualified text) : IsImport text := by
  obtain ⟨head, tail, plain, same⟩ := isQualified
  refine ⟨head, tail, fun part member => (plain part member).1, ?_, same⟩
  rintro rfl
  exact (plain "static" List.mem_cons_self).2 (by decide)

namespace Source

/-- The names in the head of a declaration are plain. -/
structure TypeDecl.LegibleHead (decl : TypeDecl) : Prop where
  name : IsPlain decl.spec.header.name
  typeParams : ∀ p ∈ decl.spec.header.typeParams, p.Clean noVars
  implemented : ∀ ref ∈ decl.spec.header.implemented, ref.Clean noVars

instance (decl : TypeDecl) : Decidable decl.LegibleHead :=
  decidable_of_iff
    (IsPlain decl.spec.header.name ∧ (∀ p ∈ decl.spec.header.typeParams, p.Clean noVars) ∧
      ∀ ref ∈ decl.spec.header.implemented, ref.Clean noVars)
    ⟨fun ⟨name, typeParams, implemented⟩ => ⟨name, typeParams, implemented⟩,
      fun head => ⟨head.name, head.typeParams, head.implemented⟩⟩

/-- The names of the file are plain, and so are those in the head of its first class or interface. -/
structure CompilationUnit.LegibleHead (u : CompilationUnit) : Prop where
  names : u.PlainNames
  first : ∀ decl ∈ u.topLevelClass?, decl.LegibleHead

instance (u : CompilationUnit) : Decidable u.LegibleHead :=
  decidable_of_iff (u.PlainNames ∧ ∀ decl ∈ u.topLevelClass?, decl.LegibleHead)
    ⟨fun ⟨names, first⟩ => ⟨names, first⟩, fun head => ⟨head.names, head.first⟩⟩

/-- A single import whose last name is plain names a type, even if it says that it is static. -/
theorem CompilationUnit.PlainNames.isQualified_single {u : CompilationUnit} (names : u.PlainNames)
    {i : ImportDecl} (member : i ∈ u.imports) (single : i.onDemand = false)
    (plain : IsPlain (TypeName.simpleName i.target)) : IsQualified i.target := by
  have target : i.target = Text.join "." i.segments := by
    rw [ImportDecl.target, single]
    rfl
  cases static : i.isStatic with
  | false =>
    rw [target]
    exact names.isQualified_import member (by rw [static, single]; rfl)
  | true =>
    have parts := names.imports i member
    rw [ImportDecl.typeSegments, static, Bool.or_true, if_pos rfl] at parts
    have isWord := names.members i member single
    have some_ : i.segments ≠ [] := List.cons_ne_nil _ _
    have shape := List.dropLast_append_getLast some_
    rw [List.getLast?_eq_some_getLast some_] at isWord
    have lastWord := isWord (i.segments.getLast some_) rfl
    generalize i.segments.getLast some_ = last at shape lastWord
    rw [target, ← shape] at plain ⊢
    have free := point_not_mem lastWord
    cases front : i.segments.dropLast with
    | nil =>
      rw [front] at plain
      rw [List.nil_append, Text.join, String.intercalate_singleton] at plain ⊢
      rw [TypeName.simpleName_plain free] at plain
      exact ⟨last, [], List.forall_mem_singleton.mpr plain, String.intercalate_singleton⟩
    | cons head tail =>
      rw [front] at plain
      rw [List.cons_append, join_concat] at plain ⊢
      rw [TypeName.simpleName_append _ free] at plain
      obtain ⟨first, others, isPlain, -, same⟩ :=
        Qualifies.inside ⟨head, tail, front ▸ parts, rfl⟩ plain
      exact ⟨first, others, isPlain, same⟩

end Source

namespace Decoration

/-- The texts of a declaration are names and types. -/
structure Legible (d : Decoration) : Prop where
  className : IsPlain d.className
  packageName : IsQualified d.packageName
  decorated : IsQualified d.decorated
  dotted : TypeName.isDotted d.decorated = true
  simpleName : IsPlain d.decoratedSimpleName
  typeParams : ∃ names, List.Forall₂ (IsParamText noVars) names d.typeParams
  typeArgs : ∀ arg ∈ d.typeArgs, IsType arg

/-- **A declaration with a legible head is legible.** -/
theorem legible_of_extract {file : String} {u : Source.CompilationUnit} {d : Decoration}
    (head : u.LegibleHead) (extracted : extract file u = .present d) : d.Legible := by
  obtain ⟨decl, packageName, capability, target, decorated, isDecl, isPackage, isCapability,
    isTarget, isImport, rfl⟩ := extract_eq_present extracted
  have first := head.first decl isDecl
  have cleanCapability := first.implemented capability (List.mem_of_find?_eq_some isCapability)
  obtain ⟨isArgument, named⟩ := eq_of_target? isTarget
  have cleanTarget := cleanCapability.typeArguments target isArgument
  have plain := cleanTarget.simpleName named
  rw [importOf?] at isImport
  have ends := List.find?_some isImport
  obtain ⟨dotted, simple⟩ := simpleName_of_endsIn ends (point_not_mem plain.1)
  have imported := mem_firstOccurrences.mp (List.mem_of_find?_eq_some isImport)
  obtain ⟨i, member, rfl⟩ := List.mem_map.mp imported
  have plainSimple : IsPlain (TypeName.simpleName i.target) := by
    rwa [simple]
  constructor
  · exact first.name
  · exact head.names.isQualified_package isPackage
  · cases onDemand : i.onDemand with
    | true => exact head.names.isQualified_onDemand member onDemand
    | false => exact head.names.isQualified_single member onDemand plainSimple
  · exact dotted
  · exact plainSimple
  · exact ⟨decl.spec.typeParamNames, forall₂_map_of_forall fun p isParam =>
      ⟨p, first.typeParams p isParam, rfl, rfl⟩⟩
  · intro arg isArgument
    obtain ⟨type, member, rfl⟩ := List.mem_map.mp isArgument
    exact ⟨type, cleanTarget.typeArguments type member, rfl⟩

theorem Legible.isValid {d : Decoration} (legible : d.Legible) : d.isValid = true := by
  have className := ne_empty_of_isType (IsTypeText.name legible.className)
  have packageName := ne_empty_of_isDotted legible.packageName.isDotted
  have some_ {text : String} (isSome : text.isEmpty = false) : (text != "") = true := by
    rw [bne_iff_ne]
    rintro rfl
    cases isSome
  rw [Decoration.isValid, some_ className, some_ packageName, legible.dotted]
  rfl

end Decoration

/-! ### The texts of a generated class -/

namespace Forwarding

/-- A plain name with types as arguments is a type. -/
theorem isType_parameterized {name : String} {args : List String} (plain : IsPlain name)
    (areTypes : ∀ arg ∈ args, IsType arg) : IsType (parameterized name args) := by
  have refs : ∃ refs : List TypeRef, argsClean noVars refs ∧ refs.map (·.render) = args := by
    induction args with
    | nil => exact ⟨[], trivial, rfl⟩
    | cons first args ih =>
      obtain ⟨ref, clean, rfl⟩ := areTypes first List.mem_cons_self
      obtain ⟨refs, areClean, rfl⟩ := ih fun arg member =>
        areTypes arg (List.mem_cons_of_mem _ member)
      exact ⟨ref :: refs, ⟨clean, areClean⟩, rfl⟩
  obtain ⟨refs, areClean, rfl⟩ := refs
  rw [parameterized]
  split
  · exact .name plain
  · refine ⟨.named [] (.applied name refs) [] 0, ⟨id, ⟨plain, areClean⟩, trivial⟩, ?_⟩
    simp [TypeRef.render, TypeSegment.render, renderMore, renderArgs_eq, brackets, Text.times]

theorem isName_append {name tail : String} (isWord : isName name = true)
    (parts : ∀ c ∈ tail.toList, TypeName.isNamePart c = true) : isName (name ++ tail) = true := by
  obtain ⟨c, cs, chars, start, later⟩ := isName_iff.mp isWord
  refine isName_iff.mpr ⟨c, cs ++ tail.toList, by rw [String.toList_append, chars]; rfl, start, ?_⟩
  exact List.forall_mem_append.mpr ⟨later, parts⟩

theorem isParam_of_forall₂ {names texts : List String}
    (each : List.Forall₂ (IsParamText noVars) names texts) : ∀ param ∈ texts, IsParam param := by
  induction each with
  | nil => exact List.forall_mem_nil _
  | cons isParam _ ih => exact List.forall_mem_cons.mpr ⟨⟨_, isParam⟩, ih⟩

theorem mem_of_mem_addAll {i : Imports} {names : List String} {name : String}
    (member : name ∈ (i.addAll names).2.names) : name ∈ i.names ∨ name ∈ names := by
  induction names generalizing i with
  | nil => exact .inl member
  | cons first names ih =>
    have added : name ∈ ((i.add first).2.addAll names).2.names := member
    rcases ih added with before | later
    · rw [Imports.add] at before
      split at before
      · rcases List.mem_append.mp before with known | added
        · exact .inl known
        · exact .inr (List.mem_singleton.mp added ▸ List.mem_cons_self)
      · exact .inl before
    · exact .inr (List.mem_cons_of_mem _ later)

section Names

variable {d : Decoration} (legible : d.Legible)

include legible

theorem isPlain_implName : IsPlain d.implName := by
  have parts : "Impl".toList.all TypeName.isNamePart = true := by decide
  refine ⟨isName_append legible.className.1 (List.all_eq_true.mp parts), fun member => ?_⟩
  -- No text that the grammar asks for ends like the name of a generated class.
  have others : reserved.all (fun text => !Text.endsIn text "Impl") = true := by decide
  have other := List.all_eq_true.mp others d.implName member
  have ends : Text.endsIn d.implName "Impl" = true := by
    rw [Text.endsIn, Decoration.implName, String.toList_append]
    exact List.isSuffixOf_iff_suffix.mpr (List.suffix_append _ _)
  rw [ends] at other
  cases other

theorem isType_names : ∀ name ∈ TypeName.typeParamNames d.typeParams, IsType name := by
  obtain ⟨names, each⟩ := legible.typeParams
  rw [typeParamNames_eq each]
  exact fun name member => .name (isPlain_of_forall₂ each name member)

theorem isType_implType : IsType (implType d) :=
  isType_parameterized (isPlain_implName legible) (isType_names legible)

theorem isType_declaredType : IsType (declaredType d) :=
  isType_parameterized legible.className (isType_names legible)

theorem isType_delegateType : IsType (delegateType d) :=
  isType_parameterized legible.simpleName legible.typeArgs

theorem isDotted_packageName : IsDotted (packageName d) := by
  obtain ⟨head, tail, plain, same⟩ := legible.packageName
  refine ⟨"decorator", head :: tail, ?_, ?_⟩
  · exact List.forall_mem_cons.mpr ⟨by decide, fun part member => (plain part member).1⟩
  · rw [packageName, ← same]
    exact String.intercalate_cons_cons

theorem isImport_imports : ∀ name ∈ (imports d).names, IsImport name := by
  have qualified : IsQualified d.qualifiedName := by
    obtain ⟨head, tail, plain, -, same⟩ := Qualifies.inside legible.packageName legible.className
    exact ⟨head, tail, plain, same⟩
  intro name member
  rcases mem_of_mem_addAll member with none_ | added
  · cases none_
  · simp only [List.mem_cons, List.not_mem_nil, or_false] at added
    rcases added with rfl | rfl
    · exact legible.decorated.isImport
    · exact qualified.isImport

end Names

/-! ### The generated class -/

section Class

variable {d : Decoration} {s : Surface} {vars : String → Prop}

theorem sound_delegateCall {m : Method} (legible : m.Legible vars) : (delegateCall m).Sound := by
  refine ⟨⟨trivial, by decide⟩, legible.name, allSound_iff.mpr ?_⟩
  intro e member
  obtain ⟨p, isParam, rfl⟩ := List.mem_map.mp member
  exact (legible.params p isParam).2

theorem areModifiers_visibility {m : Method} (overridable : m.isOverridable = true) :
    areModifiers [m.visibility.name] := by
  simp only [Method.isOverridable, Bool.and_eq_true, Bool.or_eq_true, beq_iff_eq] at overridable
  refine List.forall_mem_singleton.mpr ?_
  rcases overridable.2 with isPublic | isProtected
  · rw [isPublic]
    decide
  · rw [isProtected]
    decide

/-- A method with the head of a method of the surface, and this result and body. -/
def withHead (d : Decoration) (s : Surface) (m : Method) (returns : String)
    (body : List Statement) : MethodDef :=
  let resolve := TypeName.substitute (typeArguments d s) (TypeName.typeParamNames m.typeParams)
  ⟨[m.visibility.name], m.typeParams.map resolve, returns, m.name,
    m.params.map fun p => ⟨resolve p.type, p.name, p.variadic⟩, m.throws.map resolve, body⟩

/-- What a forwarding method returns, and how. -/
theorem override_cases (d : Decoration) (s : Surface) (m : Method) :
    let resolve := TypeName.substitute (typeArguments d s) (TypeName.typeParamNames m.typeParams)
    (∃ statement, (statement = .run (delegateCall m) ∨ statement = .returns (delegateCall m)) ∧
        override d s m = withHead d s m (resolve m.returns) [statement]) ∨
      ∃ value, (value = delegateCall m ∨ value = .cast (delegateType d) (delegateCall m)) ∧
        override d s m = withHead d s m (declaredType d) [.returns (.create (implType d) [value])] := by
  intro resolve
  simp only [override]
  split
  · exact .inl ⟨_, .inl rfl, rfl⟩
  · split
    · refine .inr ⟨_, ?_, rfl⟩
      split
      · exact .inl rfl
      · exact .inr rfl
    · exact .inl ⟨_, .inr rfl, rfl⟩

section Method

variable {m : Method} (legible : d.Legible) (surface : s.Legible vars) (isMethod : m.Legible vars)
  (overridable : m.isOverridable = true)

include legible surface in
/-- The arguments of the delegate's type for the type variables of the surface. -/
theorem renaming_typeArguments (skip : List String) :
    Renaming vars noVars ((typeArguments d s).apply skip) :=
  surface.keeps legible.typeArgs (fun _ => False.elim) skip

include legible surface isMethod overridable

theorem sound_withHead {returns : String} {body : List Statement} (isType : IsType returns)
    (sound : ∀ statement ∈ body, statement.Sound) : (withHead d s m returns body).Sound := by
  have keeps := renaming_typeArguments legible surface (TypeName.typeParamNames m.typeParams)
  constructor
  · exact areModifiers_visibility overridable
  · obtain ⟨names, each⟩ := isMethod.typeParams
    exact isParam_of_forall₂
      (forall₂_substitute keeps each (by rw [typeParamNames_eq each]; exact fun _ => id))
  · exact isType
  · exact isMethod.name
  · intro q member
    obtain ⟨p, isParam, rfl⟩ := List.mem_map.mp member
    exact ⟨IsTypeText.mapIdentifiers keeps (isMethod.params p isParam).1,
      (isMethod.params p isParam).2⟩
  · intro text member
    obtain ⟨type, isThrown, rfl⟩ := List.mem_map.mp member
    exact IsTypeText.mapIdentifiers keeps (isMethod.throws type isThrown)
  · exact sound

/-- **A forwarding method is put together from names and types.** -/
theorem sound_override : (override d s m).Sound := by
  have keeps := renaming_typeArguments legible surface (TypeName.typeParamNames m.typeParams)
  have call := sound_delegateCall isMethod
  rcases override_cases d s m with ⟨statement, kind, same⟩ | ⟨value, kind, same⟩
  · rw [same]
    refine sound_withHead legible surface isMethod overridable
      (IsTypeText.mapIdentifiers keeps isMethod.returns) (List.forall_mem_singleton.mpr ?_)
    rcases kind with rfl | rfl
    · exact call
    · exact call
  · rw [same]
    refine sound_withHead legible surface isMethod overridable (isType_declaredType legible)
      (List.forall_mem_singleton.mpr ⟨isType_implType legible, ?_, trivial⟩)
    rcases kind with rfl | rfl
    · exact call
    · exact ⟨isType_delegateType legible, call⟩

end Method

/-- **The generated file is put together from names and types.** -/
theorem sound_unit (legible : d.Legible) (surface : s.Legible vars)
    (near : (shapesOf (delegateType d)).length < Grammar.State.lookahead) : (unit d (overrides d s)).Sound := by
  have delegate := isType_delegateType legible
  have params : ∀ param ∈ d.typeParams, IsParam param := by
    obtain ⟨names, each⟩ := legible.typeParams
    exact isParam_of_forall₂ each
  have isPublic : areModifiers ["public"] := by
    unfold areModifiers
    decide
  have isPrivate : areModifiers ["private", "final"] := by
    unfold areModifiers
    decide
  have isWord : isName delegateName = true := by decide
  have field : (delegateField d).Sound :=
    ⟨isPrivate, delegate, near, (by decide : IsPlain delegateName)⟩
  have constructor_ : (delegateConstructor d).Sound :=
    ⟨isPublic, isPlain_implName legible, List.forall_mem_singleton.mpr ⟨delegate, isWord⟩,
      List.forall_mem_singleton.mpr ⟨⟨trivial, isWord⟩, isWord⟩⟩
  have accessor_ : (accessor d).Sound :=
    ⟨isPublic, List.forall_mem_nil _, delegate, (by decide : isName accessorName = true),
      List.forall_mem_nil _, List.forall_mem_nil _, List.forall_mem_singleton.mpr ⟨trivial, isWord⟩⟩
  have methods : ∀ g ∈ (forwarded s).map (override d s), g.Sound := by
    intro g member
    obtain ⟨m, isForwarded, rfl⟩ := List.mem_map.mp member
    have inside := List.mem_filter.mp ((Method.unseen_sublist _ _).mem isForwarded)
    exact sound_override legible surface (surface.methods m inside.1) inside.2
  have generated : (implClass d (overrides d s)).Sound :=
    { modifiers := isPublic
      name := (isPlain_implName legible).1
      typeParams := params
      superclass := isType_declaredType legible
      interfaces := List.forall_mem_nil _
      fields := List.forall_mem_singleton.mpr field
      constructors := List.forall_mem_singleton.mpr constructor_
      methods := List.forall_mem_cons.mpr ⟨accessor_, methods⟩ }
  exact ⟨List.forall_mem_singleton.mpr (by decide), isDotted_packageName legible,
    isImport_imports legible, List.forall_mem_singleton.mpr generated⟩

/-- The file `u` with the one type `t` is the generated one: the members of `t` are the field and the
constructor of the delegate, and then one method for each generated method, in order. -/
structure ReadBack (d : Decoration) (s : Surface) (u : Source.CompilationUnit) (t : TypeDecl) :
    Prop where
  packageName : u.packageName = some ("decorator." ++ d.packageName)
  imports : List.Forall₂ importMatches (imports d).names u.imports
  items : u.items = [.type t]
  kind : t.spec.header.kind = .classKind
  name : t.spec.header.name = d.implName
  typeParams : t.spec.header.typeParams.map (·.render) = d.typeParams
  extended : t.spec.header.extended.map (·.render) = [declaredType d]
  implemented : t.spec.header.implemented = []
  members : ∃ field constructor methods, t.spec.members = field :: constructor :: methods ∧
    (delegateField d).Matches field ∧ (delegateConstructor d).Matches constructor ∧
    List.Forall₂ MethodDef.Matches (implClass d (overrides d s)).methods methods

theorem readBack_of_matches {u : Source.CompilationUnit} (same : (unit d (overrides d s)).Matches u) :
    ∃ t, ReadBack d s u t := by
  have types := same.types
  have items := same.items
  generalize u.types = all at types items
  cases types with
  | @cons _ t _ _ isClass none_ =>
    cases none_
    obtain ⟨fields, constructors, methods, members, isField, isConstructor, isMethod⟩ :=
      isClass.members
    obtain ⟨field, -, fieldMatches, ⟨⟩, rfl⟩ := List.forall₂_cons_left_iff.mp isField
    obtain ⟨constructor, -, constructorMatches, ⟨⟩, rfl⟩ :=
      List.forall₂_cons_left_iff.mp isConstructor
    refine ⟨t, ?_⟩
    constructor
    · rw [same.packageName]
      rfl
    · exact same.imports
    · exact items
    · exact isClass.kind
    · exact isClass.name
    · exact isClass.typeParams
    · exact isClass.extended
    · exact List.map_eq_nil_iff.mp isClass.implemented
    · exact ⟨field, constructor, methods, members, fieldMatches, constructorMatches, isMethod⟩

end Class

/-- **The generated file is read back.** This asks for plain names in the declaration and in the sources
of the decorated type and everything above it, and that no name in these sources is given type
arguments if it stays as it is written and a type variable below it may take its place. The file may
not have as many tokens as a rule can be repeated. -/
theorem synthesize_readBack {l : SourceLoader} {disk : Disk} {file text : String} {d : Decoration}
    {s : Surface} (declared : Decoration.read file text = .present d)
    (loaded : (l.load disk d.decorated).1 = .ok s)
    (head : ∀ u, Source.parse text = .ok u → u.LegibleHead)
    (sources : ∀ X, ReflTransGen (l.library disk).Extends d.decorated X →
      (l.library disk).LegibleAt d.decorated X)
    (short : ∀ tokens finish, lex (delegateType d).toList = .ok (tokens, finish) →
      tokens.length ≤ 4000)
    (few : ∀ g, synthesize d (some s) = .ok g → ∀ tokens finish,
      lex g.source.toList = .ok (tokens, finish) → tokens.length < Grammar.maxIterations) :
    ∃ g u t, synthesize d (some s) = .ok g ∧ Source.parse g.source = .ok u ∧ ReadBack d s u t := by
  obtain ⟨declaration, parsed, extracted⟩ := Decoration.read_eq_present declared
  have legible := Decoration.legible_of_extract (head declaration parsed) extracted
  rw [SourceLoader.load] at loaded
  obtain ⟨after, outcome⟩ : ∃ after, (l.library disk).loadWithin (l.bound disk) d.decorated .start =
      (.ok s, after) := by
    generalize (l.library disk).loadWithin (l.bound disk) d.decorated .start = outcome at loaded ⊢
    obtain ⟨result, after⟩ := outcome
    exact ⟨after, Prod.ext loaded rfl⟩
  have surface := Library.legible_loadWithin sources _ _ _ _ _ .refl outcome
  have near : (shapesOf (delegateType d)).length < Grammar.State.lookahead := by
    obtain ⟨tokens, finish, lexed, shapes⟩ := (spelt_type (isType_delegateType legible)).lex
    have few := short tokens finish lexed
    rw [← shapes, List.length_map]
    exact Nat.lt_of_le_of_lt few (by decide)
  have made := synthesize_eq_ok legible.isValid (Library.name_of_loadWithin outcome)
  have fewTokens := few _ made
  dsimp only at fewTokens
  obtain ⟨u, read, same⟩ :=
    CompilationUnit.parse_render (sound_unit legible surface near) fewTokens
  obtain ⟨t, readBack⟩ := readBack_of_matches same
  generalize (unit d (overrides d s)).render = source at made read
  exact ⟨_, u, t, made, read, readBack⟩

/-- The declaration of a class that decorates sequences. -/
def seqText : String :=
  "package p; import u.Seq; class Trail<T> implements Decorator<Seq<T>> \x7b \x7d"

/-- What it declares. -/
def seqTrail : Decoration :=
  ⟨"Trail", "p", "u.Seq", ["T"], ["T"], "Trail.java"⟩

/-- Files with sources, in directories at the top. -/
def sourceDisk (files : List (String × String × String)) : Disk :=
  ⟨files.flatMap fun (package, name, text) =>
    [([package], .dir), ([package, name ++ ".java"], .file ⟨.text text, .given 0⟩)], [], 0⟩

/-- Sequences, with a supertype whose type variable they give an argument for. -/
def seqDisk : Disk :=
  sourceDisk [("u", "Seq", "package u; interface Seq<E> extends Cell<E> \x7b Seq<E> tail(); \x7d"),
    ("u", "Cell", "package u; interface Cell<V> \x7b V get(); \x7d")]

/-- The surface of sequences. -/
def seqSurface : Surface :=
  ⟨"u.Seq", ["E"], ["u.Cell", "java.lang.Object"],
    [⟨"tail", [], "u.Seq<E>", .publicly, false, false, true, [], [], "u.Seq"⟩,
      ⟨"get", [], "E", .publicly, false, false, true, [], [], "u.Cell"⟩]⟩

/-- A loader of the sources at the top. -/
def topLoader : SourceLoader :=
  .ofRoots ["."]

/-- A declaration with a legible head, computed from the characters of its text. -/
theorem read_of_legible {file text : String} {cs : List Char} {d : Decoration} (isText : text = String.ofList cs)
    (computed : (parseChars cs).any (fun u =>
      (Decoration.extract file u).value? = some d ∧ u.LegibleHead) = true) :
    Decoration.read file text = .present d ∧ ∀ u, Source.parse text = .ok u → u.LegibleHead := by
  obtain ⟨u, parsed, extracted, legible⟩ := exists_parse isText computed
  refine ⟨(Decoration.read_eq_extract parsed).trans (Attempt.eq_present_of_value? extracted), fun v other => ?_⟩
  obtain rfl : u = v := Except.ok.inj (parsed.symm.trans other)
  exact legible

/-- The characters of a file, line by line. -/
theorem toList_render (u : Emit.CompilationUnit) :
    u.render.toList = u.lines.flatMap fun line => line.toList ++ ['\n'] := by
  rw [CompilationUnit.render]
  induction u.lines with
  | nil => rfl
  | cons line lines ih =>
    rw [List.map_cons, String.join_cons, String.toList_append, ih, List.flatMap_cons,
      String.toList_append]
    rfl

/-- A generated file has no more tokens than characters. -/
theorem few_of_short {d : Decoration} {s : Surface} {limit : Nat} (valid : d.isValid = true)
    (described : s.name = d.decorated)
    (short : ((unit d (overrides d s)).lines.flatMap fun line => line.toList ++ ['\n']).length < limit) :
    ∀ g, synthesize d (some s) = .ok g → ∀ tokens finish,
      lex g.source.toList = .ok (tokens, finish) → tokens.length < limit := by
  intro g made tokens finish lexed
  rw [synthesize_eq_ok valid described] at made
  cases made
  dsimp only at lexed
  rw [toList_render] at lexed
  exact Nat.lt_of_le_of_lt (length_le_of_lex lexed) short

theorem synthesize_readBack_seq : (topLoader.load seqDisk seqTrail.decorated).1 = .ok seqSurface ∧
    ∃ g u t, synthesize seqTrail (some seqSurface) = .ok g ∧ Source.parse g.source = .ok u ∧
      ReadBack seqTrail seqSurface u t := by
  obtain ⟨declared, head⟩ : Decoration.read "Trail.java" seqText = .present seqTrail ∧
      ∀ u, Source.parse seqText = .ok u → u.LegibleHead :=
    read_of_legible rfl (by decide +kernel)
  have short : ∀ tokens finish, lex (delegateType seqTrail).toList = .ok (tokens, finish) →
      tokens.length ≤ 4000 :=
    fun _ _ lexed => Nat.le_trans (length_le_of_lex lexed) (by decide)
  have few : ∀ g, synthesize seqTrail (some seqSurface) = .ok g → ∀ tokens finish,
      lex g.source.toList = .ok (tokens, finish) → tokens.length < Grammar.maxIterations :=
    few_of_short rfl rfl (by decide +kernel)
  obtain ⟨computed, sound⟩ : ((topLoader.library seqDisk).loadWithin 2 "u.Seq" .start).1.toOption =
        some seqSurface ∧
      ∀ X ∈ ["u.Seq", "u.Cell"], ((topLoader.library seqDisk).declaration X).toOption.all (fun p =>
        decide ((topLoader.library seqDisk).Legible (fun _ => True) p.1 p.2)) = true ∧
        ∀ S ∈ (topLoader.library seqDisk).supertypesOf X, S ∈ ["u.Seq", "u.Cell"] := by
    decide +kernel
  have closed X member := (sound X member).2
  have start : seqTrail.decorated ∈ ["u.Seq", "u.Cell"] := by decide
  have sources : ∀ X, ReflTransGen (topLoader.library seqDisk).Extends seqTrail.decorated X →
      (topLoader.library seqDisk).LegibleAt seqTrail.decorated X := by
    intro X reached u decl declaredX
    have legible := forall_of_all (sound X (Library.mem_of_reached start closed reached)).1
    exact (legible (u, decl) declaredX).mono fun _ _ => trivial
  have loaded : (topLoader.load seqDisk seqTrail.decorated).1 = .ok seqSurface := by
    rw [SourceLoader.load_of_closed closed start rfl]
    exact eq_ok_of_toOption computed
  exact ⟨loaded, synthesize_readBack declared loaded head sources short few⟩

theorem not_read {u : Emit.CompilationUnit}
    (refused : (match lex (u.lines.flatMap fun line => line.toList ++ ['\n']) with
      | .error _ => true
      | .ok (tokens, finish) =>
        (declarations.read .compilationUnit tokens finish).toOption.isNone) = true) :
    ∀ v, Source.parse u.render ≠ .ok v := by
  intro v parsed
  rw [Source.parse, toList_render] at parsed
  split at parsed
  · cases parsed
  · next tokens finish lexed =>
    rw [lexed] at refused
    split at parsed
    · cases parsed
    · next read =>
      simp only [read] at refused
      cases refused

/-- The declaration of a class that decorates a type with an array as its argument. -/
def captureText : String :=
  "package r; import q.B; class C implements Decorator<B<int[]>> \x7b \x7d"

/-- What it declares. -/
def capture : Decoration :=
  ⟨"C", "r", "q.B", [], ["int[]"], "C.java"⟩

/-- A type with arguments that is declared nowhere, and a subtype that has a type variable of that
name. -/
def captureDisk : Disk :=
  sourceDisk [("p", "A", "package p; interface A \x7b F<A> f(); \x7d"),
    ("q", "B", "package q; interface B<F> extends p.A \x7b \x7d")]

/-- The surface of the subtype. -/
def captureSurface : Surface :=
  ⟨"q.B", ["F"], ["p.A", "java.lang.Object"],
    [⟨"f", [], "F<p.A>", .publicly, false, false, true, [], [], "p.A"⟩]⟩

/-- No declaration gives arguments to a type variable of its own, and yet the generated file is not
read: the type variable of the subtype captures the name. -/
theorem captured_not_read :
    Decoration.read "C.java" captureText = .present capture ∧
    (topLoader.load captureDisk capture.decorated).1 = .ok captureSurface ∧
    (∀ u, Source.parse captureText = .ok u → u.LegibleHead) ∧
    (∀ X, ReflTransGen (topLoader.library captureDisk).Extends capture.decorated X → ∀ p,
      (topLoader.library captureDisk).declaration X = .ok p →
      (topLoader.library captureDisk).Legible (· ∈ p.2.spec.typeParamNames) p.1 p.2 ∧
      ∀ m ∈ p.2.spec.methods, m.method.typeParams.isEmpty = true) ∧
    (∀ p, lex (delegateType capture).toList = .ok p → p.1.length ≤ 4000) ∧
    ∃ g, synthesize capture (some captureSurface) = .ok g ∧ ∀ u, Source.parse g.source ≠ .ok u := by
  obtain ⟨declared, head⟩ : Decoration.read "C.java" captureText = .present capture ∧
      ∀ u, Source.parse captureText = .ok u → u.LegibleHead :=
    read_of_legible rfl (by decide +kernel)
  obtain ⟨loaded, sound⟩ : ((topLoader.library captureDisk).loadWithin 2 "q.B" .start).1.toOption =
        some captureSurface ∧
      ∀ X ∈ ["q.B", "p.A"], ((topLoader.library captureDisk).declaration X).toOption.all (fun p =>
        decide (((topLoader.library captureDisk).Legible (· ∈ p.2.spec.typeParamNames) p.1 p.2 ∧
          ∀ m ∈ p.2.spec.methods, m.method.typeParams.isEmpty = true))) = true ∧
        ∀ S ∈ (topLoader.library captureDisk).supertypesOf X, S ∈ ["q.B", "p.A"] := by
    decide +kernel
  have closed X member := (sound X member).2
  have start : capture.decorated ∈ ["q.B", "p.A"] := by decide
  refine ⟨declared, ?_, head, fun X reached => ?_, forall_of_all (by decide +kernel), ?_⟩
  · rw [SourceLoader.load_of_closed closed start rfl]
    exact eq_ok_of_toOption loaded
  · exact forall_of_all (sound X (Library.mem_of_reached start closed reached)).1
  · refine ⟨_, synthesize_eq_ok (by decide) rfl, ?_⟩
    exact not_read (by decide +kernel)

end Forwarding

end Forwarder
