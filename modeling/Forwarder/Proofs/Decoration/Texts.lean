/-
**The texts of a declaration.** Whatever its names are, they are identifiers, and the type arguments of
the decorated type are texts of references.

* `Symbol.Headed` — the names that type declarations and type parameters give.
* `Decoration.Worded` — names and type arguments of a declaration are texts of this kind.
* **`Decoration.worded_of_read`** — so they are in every declaration that is read.
-/

import Forwarder.Proofs.Decoration.Extract
import Forwarder.Proofs.Loading.Texts
import Forwarder.Proofs.Source.Occurrences

namespace Forwarder

namespace Source

open Grammar

/-! ### Names of declarations -/

/-- The names that are given to types and type parameters are identifiers, the names of packages consist
of them, and the names of imports begin with one. -/
def Symbol.Headed : (s : Symbol) → s.Value → Prop
  | .compilationUnit, u =>
      (∀ name ∈ u.packageDecl, ∀ part ∈ name.head :: name.tail, isIdentifier part = true) ∧
        ∀ i ∈ u.imports, isIdentifier i.head = true
  | .packageDecl, name => ∀ part ∈ name.head :: name.tail, isIdentifier part = true
  | .importDecl, i => isIdentifier i.head = true
  | .typeSpec, spec => isIdentifier spec.header.name = true ∧
      ∀ param ∈ spec.header.typeParams, isIdentifier param.name = true
  | .typeParam, param => isIdentifier param.name = true
  | _, _ => True

theorem headed_production (s : Symbol) (value : s.Value)
    (yields : (productions s).Yields Symbol.Headed Identified value) : s.Headed value := by
  cases s with
  | compilationUnit =>
    simp only [productions, DeclRule.compilationUnit, DeclRule.sym, Rule.Yields] at yields
    obtain ⟨_, rfl, isPackage, ⟨-, areImports⟩, -⟩ := yields
    exact ⟨isPackage, areImports⟩
  | packageDecl =>
    simp only [productions, DeclRule.packageDecl, DeclRule.ident, DeclRule.moreSegments, Rule.Yields]
      at yields
    obtain ⟨_, rfl, -, isHead, ⟨-, isTail⟩, -⟩ := yields
    refine List.forall_mem_cons.mpr ⟨isHead rfl, fun part member => ?_⟩
    have isPart := (isTail part member).after
    simp only [Rule.Yields] at isPart
    exact isPart rfl
  | importDecl =>
    simp only [productions, DeclRule.importDecl, DeclRule.ident, Rule.Yields] at yields
    obtain ⟨_, rfl, -, -, isHead, -⟩ := yields
    exact isHead rfl
  | typeSpec =>
    simp only [productions, DeclRule.typeSpec, DeclRule.ident, Rule.Yields] at yields
    obtain ⟨_, rfl, -, isName, isParams, -⟩ := yields
    refine ⟨isName rfl, fun param member => ?_⟩
    have isParam := isParams.bracketed param member
    simp only [DeclRule.sym, Rule.Yields] at isParam
    exact isParam
  | typeParam =>
    simp only [productions, DeclRule.typeParam, DeclRule.ident, Rule.Yields] at yields
    obtain ⟨_, rfl, -, isName, -⟩ := yields
    exact isName rfl
  | _ => trivial

/-- The names that a type at the top of a file gives. -/
theorem headed_of_parse {text : String} {u : CompilationUnit} (parsed : parse text = .ok u)
    {decl : TypeDecl} (member : decl ∈ u.types) : Symbol.Headed .typeSpec decl.spec := by
  obtain ⟨tokens, finish, lexed, spelled⟩ := spells_of_parse parsed
  have named := identified_of_lex lexed
  obtain ⟨front, spec, back, rfl, -, isSpec⟩ := typeSpec_spells_of_mem spelled member
  exact Language.Spells.holds headed_production isSpec named.of_append.2.of_append.1

/-- The package of a file consists of identifiers, and its imports begin with them. -/
theorem headed_unit_of_parse {text : String} {u : CompilationUnit} (parsed : parse text = .ok u) :
    Symbol.Headed .compilationUnit u := by
  obtain ⟨tokens, finish, lexed, spelled⟩ := spells_of_parse parsed
  exact Language.Spells.holds headed_production spelled (identified_of_lex lexed)

/-! ### References -/

namespace TypeRef

variable {type : TypeRef}

theorem typeArguments_subset : type.typeArguments ⊆ type.parts := by
  intro arg member
  rw [typeArguments] at member
  split at member
  · cases member
  · next segment last =>
    cases type with
    | wildcard | unfinished | bounded => cases last
    | named annotations first others dims =>
      exact (forall_mem_parts_named.mp fun _ isPart => isPart).2 segment (List.mem_of_getLast? last) arg
        member arg arg.self_mem_parts

theorem Worded.part (worded : type.Worded) {part : TypeRef} (member : part ∈ type.parts) :
    part.Worded :=
  fun inner within => worded inner (parts_subset member within)

theorem Worded.simpleName (worded : type.Worded) (named : type.isNamed = true) :
    isIdentifier type.simpleName = true := by
  rw [TypeRef.simpleName]
  split
  · next none_ =>
    rw [isNamed, List.getLast?_eq_none_iff.mp none_] at named
    cases named
  · next segment last => exact worded type type.self_mem_parts segment (List.mem_of_getLast? last)

end TypeRef

/-- The supertypes of a type at the top of a file are worded. -/
theorem worded_of_parse {text : String} {u : CompilationUnit} (parsed : parse text = .ok u)
    {decl : TypeDecl} (member : decl ∈ u.types) {type : TypeRef}
    (isSuper : type ∈ decl.spec.supertypes) : type.Worded := by
  refine (tidy_of_parse parsed type ?_).worded
  refine List.mem_flatMap.mpr ⟨type, List.mem_flatMap.mpr ⟨decl, member, ?_⟩, type.self_mem_parts⟩
  rw [TypeSpec.types, TypeHeader.types]
  rcases List.mem_append.mp isSuper with extended | implemented
  · simp [extended]
  · simp [implemented]

end Source

namespace Decoration

open Source

/-! ### Declarations -/

/-- The names of a declaration are identifiers, and its type arguments are texts of references. -/
structure Worded (d : Decoration) : Prop where
  isValid : d.isValid = true
  className : isIdentifier d.className = true
  simpleName : isIdentifier d.decoratedSimpleName = true
  typeParams : ∀ name ∈ TypeName.typeParamNames d.typeParams, isIdentifier name = true
  typeArgs : ∀ arg ∈ d.typeArgs, ∃ type : TypeRef, type.Worded ∧ type.render = arg

/-- What ends in a point and a name has this simple name. -/
theorem simpleName_of_endsIn {text name : String} (ends : Text.endsIn text ("." ++ name) = true)
    (free : '.' ∉ name.toList) :
    TypeName.isDotted text = true ∧ TypeName.simpleName text = name := by
  obtain ⟨front, same⟩ := List.isSuffixOf_iff_suffix.mp ends
  have text_eq : text = String.ofList front ++ "." ++ name := by
    apply String.toList_inj.mp
    rw [← same]
    simp
  refine ⟨?_, by rw [text_eq, TypeName.simpleName_append _ free]⟩
  rw [TypeName.isDotted, text_eq]
  simp

theorem eq_of_target? {capability target : TypeRef} (found : target? capability = some target) :
    target ∈ capability.typeArguments ∧ target.isNamed = true := by
  rw [target?] at found
  split at found
  · cases found
  · next type others arguments =>
    split at found
    · next named =>
      cases found
      exact ⟨arguments ▸ List.mem_cons_self, named⟩
    · cases found

/-- **The package of a declaration that is read** consists of identifiers. -/
theorem package_of_read {file text : String} {d : Decoration} (accepted : read file text = .present d) :
    ∃ head tail, d.packageName = Text.join "." (head :: tail) ∧
      ∀ part ∈ head :: tail, isIdentifier part = true := by
  obtain ⟨u, parsed, extracted⟩ := read_eq_present accepted
  obtain ⟨_, packageName, _, _, _, -, isPackage, -, -, -, rfl⟩ := extract_eq_present extracted
  obtain ⟨name, isDeclared, rfl⟩ := Option.map_eq_some_iff.mp isPackage
  exact ⟨name.head, name.tail, rfl, (headed_unit_of_parse parsed).1 name isDeclared⟩

/-- **The texts of a declaration that is read.** -/
theorem worded_of_read {file text : String} {d : Decoration} (accepted : read file text = .present d) :
    d.Worded := by
  obtain ⟨u, parsed, extracted⟩ := read_eq_present accepted
  obtain ⟨decl, packageName, capability, target, decorated, isDecl, isPackage, isCapability,
    isTarget, isImport, rfl⟩ := extract_eq_present extracted
  have member : decl ∈ u.types := List.mem_of_find?_eq_some isDecl
  obtain ⟨isName, areNames⟩ := headed_of_parse parsed member
  obtain ⟨isArgument, named⟩ := eq_of_target? isTarget
  have isSuper : capability ∈ decl.spec.supertypes :=
    List.mem_append_right _ (List.mem_of_find?_eq_some isCapability)
  have isWorded := (worded_of_parse parsed member isSuper).part
    (TypeRef.typeArguments_subset isArgument)
  have isSimple := isWorded.simpleName named
  have free : '.' ∉ target.simpleName.toList := fun point =>
    absurd (isIdentPart_of_isIdentifier isSimple '.' point) (by decide)
  rw [importOf?] at isImport
  have ends := List.find?_some isImport
  obtain ⟨dotted, simple⟩ := simpleName_of_endsIn ends free
  constructor
  · have some_ {name : String} (chars : name.toList ≠ []) : (name != "") = true := by
      rw [bne_iff_ne]
      rintro rfl
      exact chars rfl
    obtain ⟨name, isDeclared, rfl⟩ := Option.map_eq_some_iff.mp isPackage
    have package := ((level_of_parse parsed).package name isDeclared).ne_nil
    rw [isValid, some_ (ne_nil_of_isIdentifier isName), some_ package, dotted]
    rfl
  · exact isName
  · rwa [decoratedSimpleName, simple]
  · rw [typeParamNames_render areNames]
    exact List.forall_mem_map.mpr areNames
  · intro arg within
    obtain ⟨type, isType, rfl⟩ := List.mem_map.mp within
    exact ⟨type, isWorded.part (TypeRef.typeArguments_subset isType), rfl⟩

end Decoration

end Forwarder
