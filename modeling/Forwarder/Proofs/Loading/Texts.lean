/-
**The types of a loaded surface are types.** Qualifying the names of a declaration and replacing the
type variables of what it inherits are replacements in texts. If the names in the sources are plain,
and no name that is given type arguments can be replaced, then every type of the surface is the text
of a type again.

* `Qualifies` — a plain name, with or without plain names in front of it.
* `Scope.Kept` — names that stay as they are written and that a type variable may have.
* `Library.Legible` — the names and types of a declaration are in order.
* `Library.Above` — the type variables that can be replaced in what a type declares: its own, and
  those of the types that inherit from it.
* `Method.Legible`, `Surface.Legible` — the types of a surface are types.
* **`Library.legible_loadWithin`** — a surface loaded from legible declarations is legible.
-/

import Forwarder.Proofs.Loading.Search
import Forwarder.Proofs.Method
import Forwarder.Proofs.Source.Renaming
import Forwarder.Proofs.Substitution

namespace Forwarder

open Relation (ReflTransGen)
open Source

/-! ### Qualified names -/

theorem point_not_mem {name : String} (isWord : isName name = true) : '.' ∉ name.toList := by
  obtain ⟨c, cs, chars, start, parts⟩ := isName_iff.mp isWord
  rw [chars]
  intro member
  rcases List.mem_cons.mp member with rfl | later
  · revert start
    decide
  · have part := parts '.' later
    revert part
    decide

namespace TypeName

theorem ne_point_of_mem_reverse {name : String} (free : '.' ∉ name.toList) :
    ∀ c ∈ name.toList.reverse, (c != '.') = true := by
  intro c member
  rw [bne_iff_ne]
  rintro rfl
  exact free (List.mem_reverse.mp member)

theorem simpleName_plain {name : String} (free : '.' ∉ name.toList) : simpleName name = name := by
  have whole : (name.toList.reverse ++ []).takeWhile (· != '.') =
      name.toList.reverse ++ [].takeWhile (· != '.') :=
    List.takeWhile_append_of_pos (ne_point_of_mem_reverse free)
  rw [List.append_nil, List.takeWhile_nil, List.append_nil] at whole
  rw [simpleName, Text.afterLast, whole, List.reverse_reverse, String.ofList_toList]

theorem simpleName_append (front : String) {name : String} (free : '.' ∉ name.toList) :
    simpleName (front ++ "." ++ name) = name := by
  have chars : (front ++ "." ++ name).toList.reverse =
      name.toList.reverse ++ '.' :: front.toList.reverse := by
    simp
  rw [simpleName, Text.afterLast, chars,
    List.takeWhile_append_of_pos (ne_point_of_mem_reverse free)]
  simp

end TypeName

theorem join_concat (head : String) (tail : List String) (last : String) :
    Text.join "." (head :: (tail ++ [last])) = Text.join "." (head :: tail) ++ "." ++ last := by
  rw [join_point, join_point, List.map_append, String.join_append]
  simp [String.append_assoc]

/-- Plain names with points between them; a single one is `name` itself. -/
def Qualifies (name text : String) : Prop :=
  ∃ head tail, (∀ part ∈ head :: tail, IsPlain part) ∧ (tail = [] → head = name) ∧
    Text.join "." (head :: tail) = text

/-- Plain names with points between them. -/
def IsQualified (text : String) : Prop :=
  ∃ head tail, (∀ part ∈ head :: tail, IsPlain part) ∧ Text.join "." (head :: tail) = text

namespace Qualifies

variable {name text : String}

theorem self (plain : IsPlain name) : Qualifies name name :=
  ⟨name, [], List.forall_mem_singleton.mpr plain, fun _ => rfl, String.intercalate_singleton⟩

theorem inside {package : String} (isQualified : IsQualified package) (plain : IsPlain name) :
    Qualifies name (package ++ "." ++ name) := by
  obtain ⟨head, tail, parts, rfl⟩ := isQualified
  refine ⟨head, tail ++ [name], ?_, fun none_ => ?_, join_concat head tail name⟩
  · intro part member
    rcases List.mem_cons.mp member with rfl | later
    · exact parts _ List.mem_cons_self
    · rcases List.mem_append.mp later with before | last
      · exact parts _ (List.mem_cons_of_mem _ before)
      · rw [List.mem_singleton.mp last]
        exact plain
  · simp at none_

theorem of_simpleName (isQualified : IsQualified text) (same : TypeName.simpleName text = name) :
    Qualifies name text := by
  obtain ⟨head, tail, parts, rfl⟩ := isQualified
  refine ⟨head, tail, parts, ?_, rfl⟩
  rintro rfl
  rw [← same, Text.join, String.intercalate_singleton,
    TypeName.simpleName_plain (point_not_mem (parts head List.mem_cons_self).1)]

theorem isTypeText {vars : String → Prop} (qualifies : Qualifies name text) :
    IsTypeText vars text := by
  obtain ⟨head, tail, parts, -, rfl⟩ := qualifies
  exact .dotted parts

end Qualifies

/-! ### Scopes -/

namespace Source

/-- The segments of an import that name packages and types: a static import names a member at its
end, unless that is a star. -/
def ImportDecl.typeSegments (i : ImportDecl) : List String :=
  if i.onDemand || i.isStatic then i.segments.dropLast else i.segments

/-- The names of packages and imported types are plain, and imported members have names. -/
structure CompilationUnit.PlainNames (u : CompilationUnit) : Prop where
  package : ∀ name, u.packageDecl = some name → ∀ part ∈ name.head :: name.tail, IsPlain part
  imports : ∀ i ∈ u.imports, ∀ part ∈ i.typeSegments, IsPlain part
  members : ∀ i ∈ u.imports, i.onDemand = false → ∀ part ∈ i.segments.getLast?, isName part = true

instance (u : CompilationUnit) : Decidable u.PlainNames :=
  decidable_of_iff
    ((∀ name ∈ u.packageDecl, ∀ part ∈ name.head :: name.tail, IsPlain part) ∧
      (∀ i ∈ u.imports, ∀ part ∈ i.typeSegments, IsPlain part) ∧
      ∀ i ∈ u.imports, i.onDemand = false → ∀ part ∈ i.segments.getLast?, isName part = true)
    ⟨fun ⟨package, imports, members⟩ => ⟨package, imports, members⟩,
      fun names => ⟨names.package, names.imports, names.members⟩⟩

namespace CompilationUnit.PlainNames

variable {u : CompilationUnit}

theorem isQualified_package (names : u.PlainNames) {name : String}
    (isPackage : u.packageName = some name) : IsQualified name := by
  obtain ⟨dotted, isDotted, rfl⟩ := Option.map_eq_some_iff.mp isPackage
  exact ⟨dotted.head, dotted.tail, names.package dotted isDotted, rfl⟩

theorem isQualified_import (names : u.PlainNames) {i : ImportDecl} (member : i ∈ u.imports)
    (single : (!i.isStatic && !i.onDemand) = true) : IsQualified i.name := by
  have all : i.typeSegments = i.segments := by
    simp only [Bool.and_eq_true, Bool.not_eq_true'] at single
    rw [ImportDecl.typeSegments, single.1, single.2]
    rfl
  have parts := names.imports i member
  rw [all] at parts
  exact ⟨i.head, _, parts, rfl⟩

theorem isQualified_onDemand (names : u.PlainNames) {i : ImportDecl} (member : i ∈ u.imports)
    (onDemand : i.onDemand = true) : IsQualified i.target := by
  have some_ : i.tail.map (·.getD "*") ≠ [] := by
    intro none_
    rw [ImportDecl.onDemand, List.map_eq_nil_iff.mp none_] at onDemand
    cases onDemand
  have front : i.segments.dropLast = i.head :: (i.tail.map (·.getD "*")).dropLast :=
    List.dropLast_cons_of_ne_nil some_
  have parts := names.imports i member
  rw [ImportDecl.typeSegments, onDemand, Bool.true_or, if_pos rfl, front] at parts
  rw [ImportDecl.target, if_pos onDemand, front]
  exact ⟨i.head, _, parts, rfl⟩

end CompilationUnit.PlainNames

end Source

namespace Scope

variable {lib : Library} {u : CompilationUnit} {decl : TypeDecl} {own : List String} {name : String}

theorem qualifies_import (names : u.PlainNames) {qualified : String}
    (imported : (Scope.of u decl).imports.lookup name = some qualified) :
    Qualifies name qualified := by
  obtain ⟨front, back, same, -⟩ := List.lookup_eq_some_iff.mp imported
  have entry : (name, qualified) ∈ (Scope.of u decl).imports := by
    rw [same]
    exact List.mem_append_right _ List.mem_cons_self
  obtain ⟨i, member, pair⟩ := List.mem_map.mp entry
  obtain ⟨isImport, single⟩ := List.mem_filter.mp member
  obtain ⟨simple, rfl⟩ := Prod.mk.inj pair
  exact .of_simpleName (names.isQualified_import isImport single) simple

/-- A package in which a simple name is looked for. -/
theorem isQualified_of_looksIn (names : u.PlainNames) {package : String}
    (isPackage : (Scope.of u decl).LooksIn package) : IsQualified package := by
  rcases isPackage with ⟨rfl, some_⟩ | onDemand
  · cases isNamed : u.packageName with
    | none =>
      refine absurd ?_ some_
      rw [Scope.of, isNamed]
      rfl
    | some package =>
      rw [Scope.of, isNamed]
      exact names.isQualified_package isNamed
  · obtain ⟨i, isImport, rfl⟩ := List.mem_map.mp onDemand
    obtain ⟨member, kind⟩ := List.mem_filter.mp isImport
    exact names.isQualified_onDemand member (Bool.and_eq_true_iff.mp kind).1

/-- **Qualifying a plain name** puts plain names in front of it, or none. -/
theorem qualifies (names : u.PlainNames) (plain : IsPlain name) :
    Qualifies name ((Scope.of u decl).qualify lib own name) := by
  rcases (Scope.of u decl).qualify_cases lib own name with same | ⟨package, isPackage, within⟩ | imported
  · rw [same]
    exact .self plain
  · rw [within]
    exact .inside (isQualified_of_looksIn names isPackage) plain
  · exact qualifies_import names imported

theorem qualify_of_isOwnMeaning {s : Scope} (kept : s.isOwnMeaning own name = true) :
    s.qualify lib own name = name := by
  rw [qualify, reading, if_pos kept]

/-- The name stays as it is written, and is one of these. -/
def Kept (s : Scope) (lib : Library) (own : List String) (vars : String → Prop) (name : String) :
    Prop :=
  s.qualify lib own name = name ∧ vars name

instance (s : Scope) (lib : Library) (own : List String) (vars : String → Prop)
    [DecidablePred vars] : DecidablePred (s.Kept lib own vars) :=
  fun name => inferInstanceAs (Decidable (s.qualify lib own name = name ∧ vars name))

/-- **Qualifying keeps types types.** Where a name that is given arguments stays as it is written, it
is none of the names `vars`. -/
theorem renaming_qualify {vars : String → Prop} (names : u.PlainNames) :
    Renaming ((Scope.of u decl).Kept lib own vars) vars ((Scope.of u decl).qualify lib own) where
  plain _ plain := (qualifies names plain).isTypeText
  applied name plain notKept := by
    have isQualified : Qualifies name ((Scope.of u decl).qualify lib own name) :=
      qualifies names plain
    obtain ⟨head, tail, parts, single, same⟩ := isQualified
    refine ⟨head, tail, parts, ?_, same.symm⟩
    rintro rfl isVar
    obtain rfl := single rfl
    rw [Text.join, String.intercalate_singleton] at same
    exact notKept ⟨same.symm, isVar⟩
  keyword bound := by
    apply qualify_of_isOwnMeaning
    cases bound <;> simp [isOwnMeaning, Bound.keyword]

end Scope

/-! ### Legible declarations -/

/-- Names where a method has names, and clean types. -/
structure Source.MethodDecl.Legible (vars : String → Prop) (m : MethodDecl) : Prop where
  name : isName m.name = true
  typeParams : ∀ p ∈ m.typeParams, p.Clean vars
  returns : m.returns.Clean vars
  params : ∀ p ∈ m.params, p.type.Clean vars ∧ isName p.name = true
  throws : ∀ type ∈ m.throws, type.Clean vars

/-- The names of a declaration are plain, and no name that stays as it is written and is one of the
names `vars` is given type arguments in a signature or in the arguments of a supertype. -/
structure Library.Legible (lib : Library) (vars : String → Prop) (u : CompilationUnit)
    (decl : TypeDecl) : Prop where
  names : u.PlainNames
  typeParams : ∀ p ∈ decl.spec.header.typeParams, p.Clean noVars
  arguments : ∀ ref ∈ decl.spec.supertypes, ∀ type ∈ ref.typeArguments,
    type.Clean ((Scope.of u decl).Kept lib [] vars)
  methods : ∀ m ∈ decl.spec.methods, m.method.Legible
    ((Scope.of u decl).Kept lib (m.method.typeParams.map (·.name)) vars)

section Decidable

variable (vars : String → Prop) [DecidablePred vars]

instance (m : MethodDecl) : Decidable (m.Legible vars) :=
  decidable_of_iff
    (isName m.name = true ∧ (∀ p ∈ m.typeParams, p.Clean vars) ∧ m.returns.Clean vars ∧
      (∀ p ∈ m.params, p.type.Clean vars ∧ isName p.name = true) ∧
      ∀ type ∈ m.throws, type.Clean vars)
    ⟨fun ⟨name, typeParams, returns, params, throws⟩ => ⟨name, typeParams, returns, params, throws⟩,
      fun m => ⟨m.name, m.typeParams, m.returns, m.params, m.throws⟩⟩

instance (lib : Library) (u : CompilationUnit) (decl : TypeDecl) :
    Decidable (lib.Legible vars u decl) :=
  decidable_of_iff
    (u.PlainNames ∧ (∀ p ∈ decl.spec.header.typeParams, p.Clean noVars) ∧
      (∀ ref ∈ decl.spec.supertypes, ∀ type ∈ ref.typeArguments,
        type.Clean ((Scope.of u decl).Kept lib [] vars)) ∧
      ∀ m ∈ decl.spec.methods, m.method.Legible
        ((Scope.of u decl).Kept lib (m.method.typeParams.map (·.name)) vars))
    ⟨fun ⟨names, typeParams, arguments, methods⟩ => ⟨names, typeParams, arguments, methods⟩,
      fun d => ⟨d.names, d.typeParams, d.arguments, d.methods⟩⟩

end Decidable

/-- Fewer variables leave a declaration legible. -/
theorem Library.Legible.mono {lib : Library} {vars others : String → Prop} {u : CompilationUnit}
    {decl : TypeDecl} (legible : lib.Legible vars u decl)
    (fewer : ∀ name, others name → vars name) : lib.Legible others u decl := by
  have kept (own : List String) (name : String) :
      (Scope.of u decl).Kept lib own others name → (Scope.of u decl).Kept lib own vars name :=
    And.imp_right (fewer name)
  refine ⟨legible.names, legible.typeParams, ?_, ?_⟩
  · intro ref isSuper type isArgument
    exact type.clean_mono (kept []) (legible.arguments ref isSuper type isArgument)
  · intro m isMethod
    have old := legible.methods m isMethod
    refine ⟨old.name, fun p member => (old.typeParams p member).mono (kept _),
      m.method.returns.clean_mono (kept _) old.returns, ?_, ?_⟩
    · intro p member
      exact ⟨p.type.clean_mono (kept _) (old.params p member).1, (old.params p member).2⟩
    · intro type member
      exact type.clean_mono (kept _) (old.throws type member)

/-- The types and type parameters of a method are types and type parameters, and it has names where
there are names. -/
structure Method.Legible (vars : String → Prop) (m : Method) : Prop where
  name : isName m.name = true
  typeParams : ∃ names, List.Forall₂ (IsParamText vars) names m.typeParams
  returns : IsTypeText vars m.returns
  params : ∀ p ∈ m.params, IsTypeText vars p.type ∧ isName p.name = true
  throws : ∀ type ∈ m.throws, IsTypeText vars type

/-- The methods of a surface are legible, and its own type parameters declare some of the names
`vars`. -/
structure Surface.Legible (vars : String → Prop) (s : Surface) : Prop where
  typeParams : ∃ names, List.Forall₂ (IsParamText noVars) names s.typeParams ∧
    ∀ name ∈ names, vars name
  methods : ∀ m ∈ s.methods, m.Legible vars

theorem forall₂_map_of_forall {α β γ : Type} {R : β → γ → Prop} {f : α → β} {g : α → γ}
    {items : List α} (each : ∀ item ∈ items, R (f item) (g item)) :
    List.Forall₂ R (items.map f) (items.map g) := by
  rw [List.forall₂_map_left_iff, List.forall₂_map_right_iff, List.forall₂_same]
  exact each

section Declared

variable {lib : Library} {vars : String → Prop} {u : CompilationUnit} {decl : TypeDecl}

/-- A declared method. -/
theorem legible_method (names : u.PlainNames) {m : MethodMember}
    (legible : m.method.Legible
      ((Scope.of u decl).Kept lib (m.method.typeParams.map (·.name)) vars)) (declaredIn : String) :
    ((Scope.of u decl).method lib declaredIn m).Legible vars := by
  have keeps : Renaming _ vars ((Scope.of u decl).qualify lib (m.method.typeParams.map (·.name))) :=
    Scope.renaming_qualify names
  have isText {type : TypeRef} (clean : type.Clean _) (dims : Nat) :=
    IsTypeText.mapIdentifiers keeps (IsTypeText.brackets ⟨type, clean, rfl⟩ dims)
  have isPlainText {type : TypeRef} (clean : type.Clean _) :=
    IsTypeText.mapIdentifiers keeps ⟨type, clean, rfl⟩
  constructor
  · exact legible.name
  · refine ⟨m.method.typeParams.map (·.name), forall₂_map_of_forall fun p member => ?_⟩
    refine IsParamText.mapIdentifiers keeps ⟨p, legible.typeParams p member, rfl, rfl⟩ ?_
    apply Scope.qualify_of_isOwnMeaning
    have isVar : (m.method.typeParams.map (·.name)).contains p.name = true :=
      List.contains_iff_mem.mpr (List.mem_map_of_mem member)
    rw [Scope.isOwnMeaning, isVar]
    rfl
  · exact isText legible.returns _
  · intro q member
    obtain ⟨p, isParam, rfl⟩ := List.mem_map.mp member
    exact ⟨isText (legible.params p isParam).1 _, (legible.params p isParam).2⟩
  · intro text member
    obtain ⟨type, isThrown, rfl⟩ := List.mem_map.mp member
    exact isPlainText (legible.throws type isThrown)

/-- The type parameters of a declaration. -/
theorem forall₂_typeParams (names : u.PlainNames)
    (clean : ∀ p ∈ decl.spec.header.typeParams, p.Clean noVars) :
    List.Forall₂ (IsParamText noVars) decl.spec.typeParamNames
      (decl.spec.header.typeParams.map fun p => (Scope.of u decl).qualifyType lib [] p.render) := by
  have kept : Renaming _ noVars ((Scope.of u decl).qualify lib []) := Scope.renaming_qualify names
  have keeps : Renaming noVars noVars ((Scope.of u decl).qualify lib []) :=
    ⟨kept.plain, fun name plain _ => kept.applied name plain And.right, kept.keyword⟩
  refine forall₂_map_of_forall fun p member => ?_
  refine IsParamText.mapIdentifiers keeps ⟨p, clean p member, rfl, rfl⟩ ?_
  apply Scope.qualify_of_isOwnMeaning
  have isVar : (Scope.of u decl).typeVars.contains p.name = true :=
    List.contains_iff_mem.mpr (List.mem_map_of_mem member)
  rw [Scope.isOwnMeaning, isVar]
  rfl

/-- The type arguments of a supertype. -/
theorem isTypeText_typeArguments (names : u.PlainNames) {ref : TypeRef}
    (clean : ∀ type ∈ ref.typeArguments, type.Clean ((Scope.of u decl).Kept lib [] vars)) :
    ∀ text ∈ (Scope.of u decl).typeArguments lib ref, IsTypeText vars text := by
  intro text member
  obtain ⟨type, isArgument, rfl⟩ := List.mem_map.mp member
  exact IsTypeText.mapIdentifiers (Scope.renaming_qualify names) ⟨type, clean type isArgument, rfl⟩

end Declared

/-! ### Inheritance -/

section Inherited

variable {vars others : String → Prop} {names args : List String} {mapping : TypeName.Substitution}

/-- **Replacing type variables keeps types types.** -/
theorem renaming_apply (isText : ∀ text ∈ args, IsTypeText others text)
    (isVar : ∀ name ∈ names, vars name ∧ IsPlain name) (fewer : ∀ name, others name → vars name)
    (skip : List String) :
    Renaming vars others
      ((TypeName.Substitution.ofArguments names args []).apply skip) := by
  have object : IsTypeText others "Object" := .name (by decide)
  have kept {name : String} (free : ¬(vars name ∧ IsPlain name)) :
      (TypeName.Substitution.ofArguments names args []).apply skip name = name := by
    rcases TypeName.Substitution.apply_cases _ skip name with same | ⟨-, entry⟩
    · exact same
    · rcases TypeName.Substitution.ofArguments_mem object isText _ entry with nothing | ⟨isName, -⟩
      · cases nothing
      · exact absurd (isVar name isName) free
  constructor
  · intro name plain
    rcases TypeName.Substitution.apply_cases _ skip name with same | ⟨-, entry⟩
    · rw [same]
      exact .name plain
    · rcases TypeName.Substitution.ofArguments_mem object isText _ entry with nothing | ⟨-, isType⟩
      · cases nothing
      · exact isType
  · intro name plain free
    refine ⟨name, [], List.forall_mem_singleton.mpr plain, fun _ isVar => free (fewer name isVar), ?_⟩
    rw [kept fun both => free both.1, Text.join, String.intercalate_singleton]
  · intro bound
    apply kept
    rintro ⟨-, -, free⟩
    revert free
    cases bound <;> decide

/-- Type parameters keep their names where these are protected. -/
theorem forall₂_substitute {skip texts : List String}
    (keeps : Renaming vars others (mapping.apply skip))
    (each : List.Forall₂ (IsParamText vars) names texts) (skipped : ∀ name ∈ names, name ∈ skip) :
    List.Forall₂ (IsParamText others) names (texts.map (TypeName.substitute mapping skip)) := by
  induction each with
  | nil => exact .nil
  | @cons name text names texts isParam _ ih =>
    have kept : mapping.apply skip name = name := by
      rw [TypeName.Substitution.apply,
        if_pos (List.contains_iff_mem.mpr (skipped name List.mem_cons_self))]
    exact .cons (isParam.mapIdentifiers keeps kept)
      (ih fun name member => skipped name (List.mem_cons_of_mem _ member))

/-- A legible method under such a replacement. -/
theorem Method.Legible.substituted {m : Method} (legible : m.Legible vars)
    (keeps : ∀ skip, Renaming vars others (mapping.apply skip)) :
    (m.substituted mapping).Legible others := by
  obtain ⟨names, each⟩ := legible.typeParams
  have isText {text : String} (isType : IsTypeText vars text) :=
    IsTypeText.mapIdentifiers (keeps (TypeName.typeParamNames m.typeParams)) isType
  constructor
  · exact legible.name
  · refine ⟨names, forall₂_substitute (keeps _) each ?_⟩
    rw [typeParamNames_eq each]
    exact fun _ member => member
  · exact isText legible.returns
  · intro q member
    obtain ⟨p, isParam, rfl⟩ := List.mem_map.mp member
    exact ⟨isText (legible.params p isParam).1, (legible.params p isParam).2⟩
  · intro text member
    obtain ⟨type, isThrown, rfl⟩ := List.mem_map.mp member
    exact isText (legible.throws type isThrown)

theorem isPlain_of_forall₂ {texts : List String} (each : List.Forall₂ (IsParamText vars) names texts) :
    ∀ name ∈ names, IsPlain name := by
  induction each with
  | nil => exact List.forall_mem_nil _
  | cons isParam _ ih =>
    obtain ⟨param, clean, rfl, -⟩ := isParam
    exact List.forall_mem_cons.mpr ⟨clean.1, ih⟩

/-- The replacement of the type variables of a legible surface by types. -/
theorem Surface.Legible.keeps {s : Surface} (legible : s.Legible vars)
    (isText : ∀ text ∈ args, IsTypeText others text) (fewer : ∀ name, others name → vars name)
    (skip : List String) :
    Renaming vars others ((TypeName.Substitution.ofArguments (TypeName.typeParamNames s.typeParams)
      args []).apply skip) := by
  obtain ⟨names, each, isVar⟩ := legible.typeParams
  rw [typeParamNames_eq each]
  exact renaming_apply isText (fun name member => ⟨isVar name member, isPlain_of_forall₂ each name member⟩)
    fewer skip

/-- What a subtype inherits from a legible surface. -/
theorem Surface.Legible.inherited {s : Surface} (legible : s.Legible vars)
    (isText : ∀ text ∈ args, IsTypeText others text) (fewer : ∀ name, others name → vars name) :
    ∀ m ∈ s.inherited args, m.Legible others := by
  intro m member
  obtain ⟨inner, isMethod, rfl⟩ := List.mem_map.mp member
  exact (legible.methods inner isMethod).substituted (legible.keeps isText fewer)

theorem legible_rootMethods : ∀ m ∈ rootMethods, m.Legible vars := by
  intro m member
  simp only [rootMethods, List.mem_cons, List.not_mem_nil, or_false] at member
  rcases member with rfl | rfl | rfl
  · refine ⟨by decide, ⟨[], .nil⟩, .name (by decide), ?_, List.forall_mem_nil _⟩
    exact List.forall_mem_singleton.mpr ⟨.name (by decide), by decide⟩
  · exact ⟨by decide, ⟨[], .nil⟩, .name (by decide), List.forall_mem_nil _, List.forall_mem_nil _⟩
  · exact ⟨by decide, ⟨[], .nil⟩, .name (by decide), List.forall_mem_nil _, List.forall_mem_nil _⟩

end Inherited

/-! ### Loading -/

namespace Library

variable {lib : Library} {root : String}

/-- The type variables of a type that is loaded for `root`, and of the types among them that inherit
from it. -/
def Above (lib : Library) (root name var : String) : Prop :=
  ∃ Y u decl, ReflTransGen lib.Extends root Y ∧ ReflTransGen lib.Extends Y name ∧
    lib.declaration Y = .ok (u, decl) ∧ var ∈ decl.spec.typeParamNames

/-- The declaration of the type is legible, whichever it is. -/
def LegibleAt (lib : Library) (root name : String) : Prop :=
  ∀ u decl, lib.declaration name = .ok (u, decl) → lib.Legible (lib.Above root name) u decl

theorem Above.extends {name super var : String} (above : lib.Above root name var)
    (edge : lib.Extends name super) : lib.Above root super var := by
  obtain ⟨Y, u, decl, fromRoot, toName, declared, isVar⟩ := above
  exact ⟨Y, u, decl, fromRoot, toName.tail edge, declared, isVar⟩

/-- The supertypes of a type, without the root type. -/
def supertypesOf (lib : Library) (name : String) : List String :=
  match lib.declaration name with
  | .error _ => []
  | .ok (u, decl) => (decl.spec.supertypes.map fun ref =>
      (Scope.of u decl).qualifySupertype lib ref.qualifiedName).filter (· != rootType)

theorem extends_iff {name super : String} :
    lib.Extends name super ↔ super ∈ lib.supertypesOf name := by
  rw [supertypesOf]
  constructor
  · rintro ⟨u, decl, declared, ref, isSuper, rfl, other⟩
    rw [declared]
    exact List.mem_filter.mpr ⟨List.mem_map_of_mem isSuper, bne_iff_ne.mpr other⟩
  · intro member
    split at member
    · cases member
    · next u decl declared =>
      obtain ⟨isSuper, other⟩ := List.mem_filter.mp member
      obtain ⟨ref, isRef, rfl⟩ := List.mem_map.mp isSuper
      exact ⟨u, decl, declared, ref, isRef, rfl, bne_iff_ne.mp other⟩

/-- What can be reached stays within names that are closed under supertypes. -/
theorem mem_of_reached {names : List String} (start : root ∈ names)
    (closed : ∀ X ∈ names, ∀ S ∈ lib.supertypesOf X, S ∈ names) {X : String}
    (reached : ReflTransGen lib.Extends root X) : X ∈ names := by
  induction reached with
  | refl => exact start
  | tail _ edge ih => exact closed _ ih _ (extends_iff.mp edge)

/-- A step that loads only legible surfaces, of the supertypes of a type. -/
def LoadsLegible (lib : Library) (root name : String) (load : LoadStep) : Prop :=
  ∀ super t s after, lib.Extends name super → load super t = (.ok s, after) →
    s.Legible (lib.Above root super)

/-- One more supertype. -/
theorem legible_addSupertype {name : String} {u : CompilationUnit} {decl : TypeDecl}
    {load : LoadStep} (declared : lib.declaration name = .ok (u, decl))
    (legible : lib.Legible (lib.Above root name) u decl) (loads : lib.LoadsLegible root name load)
    {ref : TypeRef} (isSuper : ref ∈ decl.spec.supertypes) {g : Gathered}
    (before : ∀ m ∈ g.methods, m.Legible (lib.Above root name)) :
    ∀ m ∈ (lib.addSupertype (Scope.of u decl) load g ref).methods,
      m.Legible (lib.Above root name) := by
  cases addSupertype_adds lib (Scope.of u decl) load g ref with
  | root _ _ _ methods => rwa [methods]
  | known _ _ _ _ methods => rwa [methods]
  | failed _ _ _ _ _ _ _ _ _ methods => rwa [methods]
  | loaded other fresh t same s after loaded visited supertypes methods =>
    have edge : lib.Extends name ((Scope.of u decl).qualifySupertype lib ref.qualifiedName) :=
      ⟨u, decl, declared, ref, isSuper, rfl, other⟩
    have isText := isTypeText_typeArguments legible.names (legible.arguments ref isSuper)
    have inherited := (loads _ t s after edge loaded).inherited isText
      fun name above => above.extends edge
    rw [methods]
    exact List.forall_mem_append.mpr ⟨before, inherited⟩

/-- All supertypes of a declaration. -/
theorem legible_foldl {name : String} {u : CompilationUnit} {decl : TypeDecl} {load : LoadStep}
    (declared : lib.declaration name = .ok (u, decl))
    (legible : lib.Legible (lib.Above root name) u decl) (loads : lib.LoadsLegible root name load)
    (refs : List TypeRef) (areSuper : ∀ ref ∈ refs, ref ∈ decl.spec.supertypes) :
    ∀ g : Gathered, (∀ m ∈ g.methods, m.Legible (lib.Above root name)) →
      ∀ m ∈ (refs.foldl (lib.addSupertype (Scope.of u decl) load) g).methods,
        m.Legible (lib.Above root name) := by
  induction refs with
  | nil => exact fun _ before => before
  | cons ref refs ih =>
    intro g before
    have isSuper := areSuper ref List.mem_cons_self
    exact ih (fun other member => areSuper other (List.mem_cons_of_mem _ member)) _
      (legible_addSupertype declared legible loads isSuper before)

theorem legible_surfaceOf {name : String} {u : CompilationUnit} {decl : TypeDecl} {load : LoadStep}
    (reached : ReflTransGen lib.Extends root name) (declared : lib.declaration name = .ok (u, decl))
    (legible : lib.Legible (lib.Above root name) u decl) (loads : lib.LoadsLegible root name load)
    (t : Trace) : (lib.surfaceOf load name u decl t).1.Legible (lib.Above root name) := by
  constructor
  · refine ⟨decl.spec.typeParamNames, forall₂_typeParams legible.names legible.typeParams, ?_⟩
    intro var isVar
    exact ⟨name, u, decl, reached, .refl, declared, isVar⟩
  · intro m member
    have own : ∀ m ∈ decl.spec.methods.map ((Scope.of u decl).method lib name),
        m.Legible (lib.Above root name) := by
      intro m member
      obtain ⟨declaredMethod, isMethod, rfl⟩ := List.mem_map.mp member
      exact legible_method legible.names (legible.methods declaredMethod isMethod) name
    have gathered := legible_foldl declared legible loads decl.spec.supertypes (fun _ => id)
      ⟨[], _, t.ask (lib.searchedOwn (Scope.of u decl) decl.spec)⟩ own
    rcases List.mem_append.mp ((Method.unseen_sublist _ _).mem member) with inside | rooted
    · exact gathered m inside
    · split at rooted
      · cases rooted
      · exact legible_rootMethods m rooted

theorem name_of_loadWithin {bound : Nat} {name : String} {t after : Trace} {s : Surface}
    (loaded : lib.loadWithin bound name t = (.ok s, after)) : s.name = name := by
  cases bound with
  | zero => cases loaded
  | succ bound =>
    rw [loadWithin] at loaded
    split at loaded
    · cases loaded
    · cases loaded
      rfl

/-- **A surface loaded from legible declarations is legible.** -/
theorem legible_loadWithin (legible : ∀ X, ReflTransGen lib.Extends root X → lib.LegibleAt root X)
    (bound : Nat) : ∀ (name : String) (t : Trace) (s : Surface) (after : Trace),
      ReflTransGen lib.Extends root name → lib.loadWithin bound name t = (.ok s, after) →
      s.Legible (lib.Above root name) := by
  induction bound with
  | zero =>
    intro name t s after _ loaded
    cases loaded
  | succ bound ih =>
    intro name t s after reached loaded
    rw [loadWithin] at loaded
    split at loaded
    · cases loaded
    · next u decl declared =>
      have loads : lib.LoadsLegible root name (lib.loadWithin bound) :=
        fun super t s after edge => ih super t s after (reached.tail edge)
      have surface := legible_surfaceOf reached declared (legible name reached u decl declared) loads
        (t.visit name)
      cases loaded
      exact surface

end Library

end Forwarder
