/-
**Declarations as tokens.** Every declaration is written with the texts it holds and the fixed words and
marks of its construct, in the order of its production. An unfinished wildcard holds a keyword that was read
once more behind it; it can be written or left out.

* `Balanced.tokens`, `TypeRef.tokens`, `Member.tokens`, … — the tokens of each construct.
* `CompilationUnit.tokens` — those of a file without stray semicolons; `CompilationUnit.allTokens` — with
  them.
* **`tokens_production`** — every construct is written by its production.
* `reversible_production` — no production loses anything of what it reads.
-/

import Forwarder.Proofs.Grammar.Writing
import Forwarder.Source.Productions

namespace Forwarder.Source

open Grammar

/-! ### Uninterpreted tokens -/

mutual

/-- A token, or a group with its parentheses or braces. -/
def Balanced.tokens : Balanced → List String
  | .token text => [text]
  | .parens inner => "(" :: balancedTokens inner ++ [")"]
  | .braces inner => "\x7b" :: balancedTokens inner ++ ["\x7d"]

/-- Tokens and groups one after the other. -/
def balancedTokens : List Balanced → List String
  | [] => []
  | item :: others => item.tokens ++ balancedTokens others

end

theorem balancedTokens_eq (items : List Balanced) :
    balancedTokens items = items.flatMap Balanced.tokens := by
  induction items with
  | nil => rfl
  | cons first others ih => rw [balancedTokens, ih, List.flatMap_cons]

/-- Tokens between parentheses. -/
def parenTokens (inner : List Balanced) : List String :=
  "(" :: balancedTokens inner ++ [")"]

/-- Tokens between braces. -/
def braceTokens (inner : List Balanced) : List String :=
  "\x7b" :: balancedTokens inner ++ ["\x7d"]

/-- The segments of a dotted name, with points between them. -/
def DottedName.tokens (name : DottedName) : List String :=
  name.head :: markedTexts "." (fun segment => [segment]) name.tail

/-- An annotation with its arguments. -/
def AnnotationUse.tokens (use : AnnotationUse) : List String :=
  "@" :: use.name.tokens ++ use.args.elim [] parenTokens

/-- A modifier. -/
def Modifier.tokens : Modifier → List String
  | .annotationUse use => use.tokens
  | .keyword k => [k.text]
  | .nonSealed => ["non", "-", "sealed"]

/-! ### Types -/

/-- Array dimensions. -/
def dimTokens (dims : Nat) : List String :=
  (List.replicate dims ()).flatMap fun _ => ["[", "]"]

mutual

/-- A type with the annotations on it. The keyword of an unfinished wildcard is written if `whole` says so. -/
def TypeRef.tokens (whole : Bool) : TypeRef → List String
  | .wildcard annotations dims => annotations.flatMap AnnotationUse.tokens ++ ["?"] ++ dimTokens dims
  | .unfinished annotations bound dims =>
    annotations.flatMap AnnotationUse.tokens ++ "?" :: (if whole then [bound.keyword] else []) ++
      dimTokens dims
  | .bounded annotations bound type dims =>
    annotations.flatMap AnnotationUse.tokens ++ ["?", bound.keyword] ++ type.tokens whole ++ dimTokens dims
  | .named annotations first others dims =>
    annotations.flatMap AnnotationUse.tokens ++ first.tokens whole ++ moreTokens whole others ++
      dimTokens dims

/-- A segment with its type arguments. -/
def TypeSegment.tokens (whole : Bool) : TypeSegment → List String
  | .plain name => [name]
  | .applied name args => name :: "<" :: argTokens whole args ++ [">"]

/-- The segments after the first, each behind a point. -/
def moreTokens (whole : Bool) : List TypeSegment → List String
  | [] => []
  | segment :: others => "." :: segment.tokens whole ++ moreTokens whole others

/-- Type arguments, with commas between them. -/
def argTokens (whole : Bool) : List TypeRef → List String
  | [] => []
  | [type] => type.tokens whole
  | type :: others => type.tokens whole ++ "," :: argTokens whole others

end

theorem moreTokens_eq (whole : Bool) (segments : List TypeSegment) :
    moreTokens whole segments = markedTexts "." (TypeSegment.tokens whole) segments := by
  induction segments with
  | nil => rfl
  | cons first others ih =>
    rw [moreTokens, ih]
    rfl

theorem argTokens_eq (whole : Bool) (args : List TypeRef) :
    argTokens whole args = separatedTexts "," (TypeRef.tokens whole) args := by
  induction args with
  | nil => rfl
  | cons first others ih =>
    cases others with
    | nil => exact (List.append_nil _).symm
    | cons second others =>
      rw [argTokens, ih]
      · simp only [separatedTexts, markedTexts, List.flatMap_cons, List.cons_append]
      · exact List.cons_ne_nil _ _

/-- A type parameter with its bounds. -/
def TypeParam.tokens (whole : Bool) (p : TypeParam) : List String :=
  p.annotations.flatMap AnnotationUse.tokens ++
    p.name :: clauseTexts "extends" "&" (TypeRef.tokens whole) p.bounds

/-- The clause of type parameters. -/
def typeParamTokens (whole : Bool) (params : List TypeParam) : List String :=
  bracketedTexts "<" ">" (TypeParam.tokens whole) params

/-! ### Members -/

/-- A parameter. -/
def FormalParameter.tokens (whole : Bool) (p : FormalParameter) : List String :=
  p.modifiers.flatMap Modifier.tokens ++ p.type.tokens whole ++ (if p.variadic then ["..."] else []) ++
    p.name :: dimTokens p.dims

/-- The parameters between parentheses. -/
def paramTokens (whole : Bool) (params : List FormalParameter) : List String :=
  enclosedTexts "(" ")" (FormalParameter.tokens whole) params

/-- A method with its body, or the semicolon in place of one. -/
def MethodDecl.tokens (whole : Bool) (m : MethodDecl) : List String :=
  typeParamTokens whole m.typeParams ++ m.returns.tokens whole ++ m.name :: paramTokens whole m.params ++
    dimTokens m.dims ++ clauseTexts "throws" "," (TypeRef.tokens whole) m.throws ++
    m.defaultValue.elim [] (fun value => "default" :: balancedTokens value) ++
    m.body.elim [";"] braceTokens

/-- A constructor. -/
def ConstructorDecl.tokens (whole : Bool) (c : ConstructorDecl) : List String :=
  typeParamTokens whole c.typeParams ++ c.name :: c.params.elim [] (paramTokens whole) ++
    clauseTexts "throws" "," (TypeRef.tokens whole) c.throws ++ braceTokens c.body

/-- A field. -/
def FieldDecl.tokens (whole : Bool) (f : FieldDecl) : List String :=
  f.type.tokens whole ++ f.name :: balancedTokens f.rest ++ [";"]

/-- The head of a type declaration. -/
def TypeHeader.tokens (whole : Bool) (h : TypeHeader) : List String :=
  h.kind.keyword :: h.name :: typeParamTokens whole h.typeParams ++
    h.components.elim [] (paramTokens whole) ++
    clauseTexts "extends" "," (TypeRef.tokens whole) h.extended ++
    clauseTexts "implements" "," (TypeRef.tokens whole) h.implemented ++
    clauseTexts "permits" "," (TypeRef.tokens whole) h.permitted

mutual

/-- A member with the modifiers in front of it. -/
def Member.tokens (whole : Bool) : Member → List String
  | .empty _ => [";"]
  | .declared _ modifiers decl => modifiers.flatMap Modifier.tokens ++ decl.tokens whole

/-- What a member declares. -/
def MemberDecl.tokens (whole : Bool) : MemberDecl → List String
  | .initializer body => braceTokens body
  | .type header members => header.tokens whole ++ "\x7b" :: membersTokens whole members ++ ["\x7d"]
  | .method method => method.tokens whole
  | .constructor constructor => constructor.tokens whole
  | .field field => field.tokens whole
  | .enumConstant name args body separator =>
    name :: args.elim [] parenTokens ++ bodyTokens whole body ++
      separator.elim [] fun separator => [separator.text]

/-- Members one after the other. -/
def membersTokens (whole : Bool) : List Member → List String
  | [] => []
  | member :: others => member.tokens whole ++ membersTokens whole others

/-- A body between braces that may be missing. -/
def bodyTokens (whole : Bool) : Option (List Member) → List String
  | none => []
  | some members => "\x7b" :: membersTokens whole members ++ ["\x7d"]

end

theorem membersTokens_eq (whole : Bool) (members : List Member) :
    membersTokens whole members = members.flatMap (Member.tokens whole) := by
  induction members with
  | nil => rfl
  | cons first others ih => rw [membersTokens, ih, List.flatMap_cons]

/-! ### Files -/

/-- A type declaration after its modifiers. -/
def TypeSpec.tokens (whole : Bool) (t : TypeSpec) : List String :=
  t.header.tokens whole ++ "\x7b" :: membersTokens whole t.members ++ ["\x7d"]

/-- A type declared at the top of a file. -/
def TypeDecl.tokens (whole : Bool) (t : TypeDecl) : List String :=
  t.modifiers.flatMap Modifier.tokens ++ t.spec.tokens whole

/-- A type at the top, or a stray semicolon. -/
def TopLevel.tokens (whole : Bool) : TopLevel → List String
  | .type decl => decl.tokens whole
  | .semicolon => [";"]

/-- A package declaration. -/
def packageTokens (name : DottedName) : List String :=
  "package" :: name.tokens ++ [";"]

/-- An import. -/
def ImportDecl.tokens (i : ImportDecl) : List String :=
  "import" :: (if i.isStatic then ["static"] else []) ++
    i.head :: markedTexts "." (fun segment => [segment.getD "*"]) i.tail ++ [";"]

/-- What stands in front of the types of a file. -/
def CompilationUnit.headTokens (u : CompilationUnit) : List String :=
  u.packageDecl.elim [] packageTokens ++ u.imports.flatMap ImportDecl.tokens

/-- **The tokens of a file**, without the stray semicolons between its types. The keywords of unfinished
wildcards are written if `whole` says so. -/
def CompilationUnit.tokens (whole : Bool) (u : CompilationUnit) : List String :=
  u.headTokens ++ u.types.flatMap (TypeDecl.tokens whole)

/-- The tokens of a file with its stray semicolons. -/
def CompilationUnit.allTokens (whole : Bool) (u : CompilationUnit) : List String :=
  u.headTokens ++ u.items.flatMap (TopLevel.tokens whole)

/-! ### Productions -/

/-- The tokens of each construct. -/
def Symbol.tokens (whole : Bool) : (s : Symbol) → s.Value → List String
  | .compilationUnit, u => u.allTokens whole
  | .packageDecl, name => packageTokens name
  | .importDecl, i => i.tokens
  | .typeDecl, decl => decl.tokens whole
  | .typeSpec, spec => spec.tokens whole
  | .modifier, m => m.tokens
  | .annotationUse, use => use.tokens
  | .typeParam, p => p.tokens whole
  | .typeRef, type => type.tokens whole
  | .typeSegment, segment => segment.tokens whole
  | .typeArgs, args => enclosedTexts "<" ">" (TypeRef.tokens whole) args
  | .wildcard, none => ["?"]
  | .wildcard, some (direction, none) => "?" :: if whole then [direction.keyword] else []
  | .wildcard, some (direction, some type) => "?" :: direction.keyword :: type.tokens whole
  | .arrayDim, _ => ["[", "]"]
  | .parameterList, params => paramTokens whole params
  | .formalParameter, p => p.tokens whole
  | .classBody, members => "\x7b" :: membersTokens whole members ++ ["\x7d"]
  | .member, m => m.tokens whole
  | .memberDecl, decl => decl.tokens whole
  | .methodDecl, m => m.tokens whole
  | .constructorDecl, c => c.tokens whole
  | .fieldDecl, f => f.tokens whole
  | .enumConstant, (name, args, body, separator) =>
    (MemberDecl.enumConstant name args body separator).tokens whole
  | .block, inner => braceTokens inner
  | .tokenGroup, inner => parenTokens inner
  | .balanced, item => item.tokens
  | .chunk, item => item.tokens

section Written

variable (whole : Bool)

/-- The tokens a value of a rule is written with. -/
abbrev written {α : Type} (rule : DeclRule α) (value : α) : List String :=
  rule.write whole (Symbol.tokens whole) value

section Parts

variable {α : Type} {rule : DeclRule α}

theorem written_group (opening closing : String) (values : List α) :
    written whole (DeclRule.group opening closing rule) values =
      opening :: values.flatMap (written whole rule) ++ [closing] := by
  simp only [written, DeclRule.group, Rule.write, List.cons_append, List.nil_append]

theorem written_dims (dims : Nat) : written whole DeclRule.dims dims = dimTokens dims := by
  simp only [written, DeclRule.dims, DeclRule.sym, Rule.write, dimTokens]
  rfl

theorem written_flag {rule : DeclRule Unit} (isThere : Bool) :
    written whole (DeclRule.flag rule) isThere = if isThere then written whole rule () else [] := by
  cases isThere <;> rfl

theorem written_typeClause (keyword : String) (types : List TypeRef) :
    written whole (DeclRule.typeClause keyword) types = clauseTexts keyword "," (TypeRef.tokens whole) types :=
  Rule.write_clause keyword "," types

theorem written_typeParams (params : List TypeParam) :
    written whole DeclRule.typeParams params = typeParamTokens whole params :=
  Rule.write_bracketed "<" ">" params

theorem written_moreSegments (segments : List String) :
    written whole DeclRule.moreSegments segments = markedTexts "." (fun segment => [segment]) segments :=
  Rule.write_many_after "." segments

theorem written_typeArgs (args : List TypeRef) :
    written whole DeclRule.typeArgs args = enclosedTexts "<" ">" (TypeRef.tokens whole) args :=
  Rule.write_enclosed "<" ">" args

theorem written_parameterList (params : List FormalParameter) :
    written whole DeclRule.parameterList params = paramTokens whole params :=
  Rule.write_enclosed "(" ")" params

end Parts

theorem written_packageDecl (name : DottedName) :
    written whole DeclRule.packageDecl name = packageTokens name := by
  simp only [packageTokens, DottedName.tokens, DeclRule.packageDecl, DeclRule.ident, Rule.write,
    written_moreSegments, List.cons_append, List.nil_append]

theorem written_importDecl (i : ImportDecl) : written whole DeclRule.importDecl i = i.tokens := by
  have segment : (DeclRule.importSegment.write whole (Symbol.tokens whole)) = fun segment => [segment.getD "*"] := by
    funext segment
    cases segment <;> rfl
  simp only [ImportDecl.tokens, DeclRule.importDecl, DeclRule.ident, Rule.write,
    written_flag, Rule.write_after, segment, List.cons_append, List.nil_append, List.append_assoc]
  rfl

theorem written_typeDecl (decl : TypeDecl) : written whole DeclRule.typeDecl decl = decl.tokens whole := by
  simp only [TypeDecl.tokens, DeclRule.typeDecl, DeclRule.sym, Rule.write]
  rfl

theorem written_compilationUnit (u : CompilationUnit) :
    written whole DeclRule.compilationUnit u = u.allTokens whole := by
  have item : DeclRule.topLevel.write whole (Symbol.tokens whole) = TopLevel.tokens whole := by
    funext item
    cases item <;> rfl
  simp only [CompilationUnit.allTokens, CompilationUnit.headTokens, DeclRule.compilationUnit,
    DeclRule.sym, Rule.write, item, List.append_assoc]
  rfl

theorem written_typeSpec (spec : TypeSpec) : written whole DeclRule.typeSpec spec = spec.tokens whole := by
  simp only [TypeSpec.tokens, TypeHeader.tokens, DeclRule.typeSpec, DeclRule.sym, DeclRule.ident,
    Rule.write, Symbol.tokens, written_typeClause, written_typeParams, List.cons_append,
    List.nil_append, List.append_assoc]

theorem written_modifier (m : Modifier) : written whole DeclRule.modifier m = m.tokens := by
  cases m <;> rfl

theorem written_annotationUse (use : AnnotationUse) :
    written whole DeclRule.annotationUse use = use.tokens := by
  simp only [AnnotationUse.tokens, DottedName.tokens, DeclRule.annotationUse, DeclRule.sym,
    DeclRule.ident, Rule.write, Symbol.tokens, written_moreSegments, List.cons_append,
    List.nil_append]

theorem written_typeParam (p : TypeParam) : written whole DeclRule.typeParam p = p.tokens whole := by
  simp only [TypeParam.tokens, DeclRule.typeParam, DeclRule.sym, DeclRule.ident, Rule.write,
    Symbol.tokens, Rule.write_clause, List.cons_append, List.nil_append]

theorem written_typeRef (type : TypeRef) : written whole DeclRule.typeRef type = type.tokens whole := by
  cases type with
  | wildcard annotations dims =>
    simp only [TypeRef.tokens, DeclRule.typeRef, DeclRule.typeCore, DeclRule.sym, Rule.write,
      Choice.write, Symbol.tokens, written_dims, List.append_assoc]
  | unfinished annotations bound dims =>
    simp only [TypeRef.tokens, DeclRule.typeRef, DeclRule.typeCore, DeclRule.sym, Rule.write,
      Choice.write, Symbol.tokens, written_dims, List.cons_append, List.append_assoc]
  | bounded annotations bound type dims =>
    simp only [TypeRef.tokens, DeclRule.typeRef, DeclRule.typeCore, DeclRule.sym, Rule.write,
      Choice.write, Symbol.tokens, written_dims, List.cons_append, List.nil_append, List.append_assoc]
  | named annotations first others dims =>
    simp only [TypeRef.tokens, DeclRule.typeRef, DeclRule.typeCore, DeclRule.sym, Rule.write,
      Choice.write, Symbol.tokens, written_dims, Rule.write_after, moreTokens_eq, markedTexts,
      List.append_assoc]

theorem written_typeSegment (segment : TypeSegment) :
    written whole DeclRule.typeSegment segment = segment.tokens whole := by
  cases segment with
  | plain => rfl
  | applied name args =>
    simp only [TypeSegment.tokens, DeclRule.typeSegment, DeclRule.sym, DeclRule.ident, Rule.write,
      Symbol.tokens, enclosedTexts, argTokens_eq, Option.elim, List.cons_append, List.nil_append]

theorem written_wildcard (bound : Option (Bound × Option TypeRef)) :
    written whole DeclRule.wildcard bound = Symbol.tokens whole .wildcard bound := by
  obtain _ | ⟨direction, _ | type⟩ := bound <;> rfl

theorem written_formalParameter (p : FormalParameter) :
    written whole DeclRule.formalParameter p = p.tokens whole := by
  simp only [FormalParameter.tokens, DeclRule.formalParameter, DeclRule.sym, DeclRule.ident,
    Rule.write, Symbol.tokens, written_flag, written_dims, List.cons_append, List.nil_append,
    List.append_assoc]

theorem written_classBody (members : List Member) :
    written whole DeclRule.classBody members = "\x7b" :: membersTokens whole members ++ ["\x7d"] := by
  rw [membersTokens_eq]
  exact written_group whole "\x7b" "\x7d" members

theorem written_member (m : Member) : written whole DeclRule.member m = m.tokens whole := by
  cases m <;> rfl

theorem written_memberDecl (decl : MemberDecl) : written whole DeclRule.memberDecl decl = decl.tokens whole := by
  cases decl <;> rfl

theorem written_methodDecl (m : MethodDecl) : written whole DeclRule.methodDecl m = m.tokens whole := by
  have value : written whole DeclRule.defaultValue m.defaultValue =
      m.defaultValue.elim [] fun value => "default" :: balancedTokens value := by
    cases m.defaultValue with
    | none => rfl
    | some value =>
      simp only [Option.elim, balancedTokens_eq]
      rfl
  have body : written whole DeclRule.methodBody m.body = m.body.elim [";"] braceTokens := by
    cases m.body <;> rfl
  simp only [MethodDecl.tokens, DeclRule.methodDecl, DeclRule.sym, DeclRule.ident, Rule.write,
    Symbol.tokens, written_typeClause, written_typeParams, written_dims, value, body,
    List.cons_append, List.nil_append, List.append_assoc]

theorem written_constructorDecl (c : ConstructorDecl) :
    written whole DeclRule.constructorDecl c = c.tokens whole := by
  simp only [ConstructorDecl.tokens, DeclRule.constructorDecl, DeclRule.sym, DeclRule.ident,
    Rule.write, Symbol.tokens, written_typeClause, written_typeParams, List.cons_append,
    List.nil_append, List.append_assoc]

theorem written_fieldDecl (f : FieldDecl) : written whole DeclRule.fieldDecl f = f.tokens whole := by
  simp only [FieldDecl.tokens, balancedTokens_eq, DeclRule.fieldDecl, DeclRule.sym, DeclRule.ident,
    Rule.write, Symbol.tokens, List.cons_append, List.nil_append, List.append_assoc]

theorem written_enumConstant (constant : Symbol.Value .enumConstant) :
    written whole DeclRule.enumConstant constant = Symbol.tokens whole .enumConstant constant := by
  obtain ⟨name, args, body, separator⟩ := constant
  have isBody : bodyTokens whole body = body.elim [] fun members =>
      "\x7b" :: (membersTokens whole members ++ ["\x7d"]) := by
    cases body <;> rfl
  simp only [DeclRule.enumConstant, DeclRule.sym, DeclRule.ident, Rule.write, Symbol.tokens,
    MemberDecl.tokens, isBody, List.cons_append, List.nil_append, List.append_assoc]

theorem written_balanced (stops : List String) (item : Balanced) :
    written whole (DeclRule.balancedUnless stops) item = item.tokens := by
  cases item <;> rfl

theorem written_block (opening closing : String) (inner : List Balanced) :
    written whole (DeclRule.group opening closing (DeclRule.sym .balanced)) inner =
      opening :: balancedTokens inner ++ [closing] := by
  rw [balancedTokens_eq]
  exact written_group whole opening closing inner

/-- **Every construct is written by its production.** -/
theorem tokens_production (s : Symbol) (value : s.Value) :
    s.tokens whole value = written whole (productions s) value := by
  cases s with
  | compilationUnit => exact (written_compilationUnit whole value).symm
  | packageDecl => exact (written_packageDecl whole value).symm
  | importDecl => exact (written_importDecl whole value).symm
  | typeDecl => exact (written_typeDecl whole value).symm
  | typeSpec => exact (written_typeSpec whole value).symm
  | modifier => exact (written_modifier whole value).symm
  | annotationUse => exact (written_annotationUse whole value).symm
  | typeParam => exact (written_typeParam whole value).symm
  | typeRef => exact (written_typeRef whole value).symm
  | typeSegment => exact (written_typeSegment whole value).symm
  | typeArgs => exact (written_typeArgs whole value).symm
  | wildcard => exact (written_wildcard whole value).symm
  | arrayDim => rfl
  | parameterList => exact (written_parameterList whole value).symm
  | formalParameter => exact (written_formalParameter whole value).symm
  | classBody => exact (written_classBody whole value).symm
  | member => exact (written_member whole value).symm
  | memberDecl => exact (written_memberDecl whole value).symm
  | methodDecl => exact (written_methodDecl whole value).symm
  | constructorDecl => exact (written_constructorDecl whole value).symm
  | fieldDecl => exact (written_fieldDecl whole value).symm
  | enumConstant => exact (written_enumConstant whole value).symm
  | block => exact (written_block whole "\x7b" "\x7d" value).symm
  | tokenGroup => exact (written_block whole "(" ")" value).symm
  | balanced => exact (written_balanced whole _ value).symm
  | chunk => exact (written_balanced whole _ value).symm

end Written

/-! ### Reversible productions -/

theorem reversible_group {α : Type} {rule : DeclRule α} (opening closing : String)
    (reversible : rule.Reversible) : (DeclRule.group opening closing rule).Reversible := by
  rw [DeclRule.group, Rule.Reversible]
  exact ⟨fun _ => rfl, trivial, reversible, trivial⟩

theorem reversible_dims : DeclRule.dims.Reversible := by
  rw [DeclRule.dims, Rule.Reversible]
  refine ⟨fun values => ?_, trivial⟩
  exact (List.eq_replicate_iff.mpr ⟨rfl, fun _ _ => rfl⟩).symm

theorem reversible_flag {rule : DeclRule Unit} (reversible : rule.Reversible) :
    (DeclRule.flag rule).Reversible := by
  rw [DeclRule.flag, Rule.Reversible]
  refine ⟨?_, reversible⟩
  rintro (_ | ⟨⟨⟩⟩) <;> rfl

theorem reversible_balanced (stops : List String) : (DeclRule.balancedUnless stops).Reversible := by
  refine And.intro ?_ ⟨trivial, trivial, trivial⟩
  rintro (_ | _ | _) <;> rfl

/-- **No production loses anything of what it reads.** -/
theorem reversible_production (s : Symbol) : (productions s).Reversible := by
  have call (s : Symbol) : (DeclRule.sym s).Reversible := trivial
  have ident : DeclRule.ident.Reversible := trivial
  have typeParams : DeclRule.typeParams.Reversible := (call .typeParam).bracketed "<" ">"
  have clause (keyword mark : String) : (Rule.clause keyword mark (DeclRule.sym .typeRef)).Reversible :=
    (call .typeRef).clause keyword mark
  cases s with
  | compilationUnit =>
    have topLevel : DeclRule.topLevel.Reversible := by
      refine And.intro ?_ ⟨trivial, trivial⟩
      rintro (_ | ⟨⟨⟩⟩) <;> rfl
    exact And.intro (fun _ => rfl) ⟨trivial, trivial, topLevel⟩
  | packageDecl => exact And.intro (fun _ => rfl) ⟨trivial, trivial, ident.after ".", trivial⟩
  | importDecl =>
    have segment : DeclRule.importSegment.Reversible := by
      refine And.intro ?_ ⟨trivial, trivial⟩
      rintro (_ | ⟨⟨⟩⟩) <;> rfl
    have isStatic : (DeclRule.flag (.word "static")).Reversible := reversible_flag trivial
    exact And.intro (fun _ => rfl) ⟨trivial, isStatic, trivial, segment.after ".", trivial⟩
  | typeDecl => exact And.intro (fun _ => rfl) ⟨trivial, trivial⟩
  | typeSpec =>
    exact And.intro (fun _ => rfl) ⟨trivial, trivial, typeParams, trivial, clause _ _, clause _ _,
      clause _ _, trivial⟩
  | modifier =>
    have nonSealed : DeclRule.nonSealed.Reversible := And.intro (fun _ => rfl) ⟨trivial, trivial, trivial⟩
    refine And.intro ?_ ⟨trivial, trivial, nonSealed⟩
    rintro (_ | _ | ⟨⟨⟩⟩) <;> rfl
  | annotationUse => exact And.intro (fun _ => rfl) ⟨trivial, trivial, ident.after ".", trivial⟩
  | typeParam => exact And.intro (fun _ => rfl) ⟨trivial, trivial, clause _ _⟩
  | typeRef =>
    refine And.intro ?_ ⟨trivial, ⟨trivial, trivial, (call .typeSegment).after "."⟩, reversible_dims⟩
    rintro ⟨_, (_ | ⟨_, _ | _⟩) | _, _⟩ <;> rfl
  | typeSegment =>
    refine And.intro ?_ ⟨trivial, trivial⟩
    rintro ⟨_, _ | _⟩ <;> rfl
  | typeArgs => exact (call .typeRef).enclosed "<" ">"
  | wildcard =>
    have bound : (Rule.kept (.pick Bound.all Bound.keyword) (DeclRule.sym .typeRef)).Reversible :=
      ⟨trivial, trivial⟩
    exact bound.after "?"
  | arrayDim => exact And.intro (fun _ => rfl) ⟨trivial, trivial⟩
  | parameterList => exact (call .formalParameter).enclosed "(" ")"
  | formalParameter =>
    have variadic : (DeclRule.flag (.word "...")).Reversible := reversible_flag trivial
    exact And.intro (fun _ => rfl) ⟨trivial, trivial, variadic, trivial, reversible_dims⟩
  | classBody => exact reversible_group _ _ (call .member)
  | member =>
    refine And.intro ?_ ⟨trivial, trivial, trivial⟩
    rintro ⟨_, ⟨⟨⟩⟩ | _⟩ <;> rfl
  | memberDecl =>
    refine And.intro ?_ ⟨trivial, trivial, trivial, trivial, trivial, trivial⟩
    rintro (_ | _ | _ | _ | _ | _) <;> rfl
  | methodDecl =>
    have value : DeclRule.defaultValue.Reversible :=
      Rule.Reversible.after (show (Rule.many1 (DeclRule.sym .chunk)).Reversible from trivial) "default"
    have body : DeclRule.methodBody.Reversible := by
      refine And.intro ?_ ⟨trivial, trivial⟩
      rintro (_ | ⟨⟨⟩⟩) <;> rfl
    exact And.intro (fun _ => rfl) ⟨typeParams, trivial, trivial, trivial, reversible_dims, clause _ _,
      value, body⟩
  | constructorDecl =>
    exact And.intro (fun _ => rfl) ⟨typeParams, trivial, trivial, clause _ _, trivial⟩
  | fieldDecl => exact And.intro (fun _ => rfl) ⟨trivial, trivial, trivial, trivial⟩
  | enumConstant => exact ⟨trivial, trivial, trivial, trivial⟩
  | block => exact reversible_group _ _ (call .balanced)
  | tokenGroup => exact reversible_group _ _ (call .balanced)
  | balanced => exact reversible_balanced _
  | chunk => exact reversible_balanced _

end Forwarder.Source
