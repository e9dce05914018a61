/-
**The grammar of declarations.** One nonterminal for each construct, its name in messages, what it
reads, and its production.

* `Symbol` — the nonterminals.
* `productions` — the rule behind each of them.
* `declarations` — the grammar they form.

Keywords are not reserved: an identifier may spell one, and the order of the alternatives decides.
-/

import Forwarder.Grammar.Run
import Forwarder.Source.Declaration

namespace Forwarder.Source

open Grammar (Rule Choice)

/-- The nonterminals. -/
inductive Symbol
  | compilationUnit
  | packageDecl
  | importDecl
  | typeDecl
  | typeSpec
  | modifier
  | annotationUse
  | typeParam
  | typeRef
  | typeSegment
  | typeArgs
  | wildcard
  | arrayDim
  | parameterList
  | formalParameter
  | classBody
  | member
  | memberDecl
  | methodDecl
  | constructorDecl
  | fieldDecl
  | enumConstant
  | block
  | tokenGroup
  | balanced
  | chunk
deriving DecidableEq, Repr

namespace Symbol

/-- The nonterminal as messages name it. -/
def name : Symbol → String
  | compilationUnit => "CompilationUnit"
  | packageDecl => "PackageDecl"
  | importDecl => "ImportDecl"
  | typeDecl => "TypeDecl"
  | typeSpec => "TypeSpec"
  | modifier => "Modifier"
  | annotationUse => "Annotation"
  | typeParam => "TypeParam"
  | typeRef => "TypeRef"
  | typeSegment => "TypeSegment"
  | typeArgs => "TypeArgs"
  | wildcard => "Wildcard"
  | arrayDim => "ArrayDim"
  | parameterList => "ParameterList"
  | formalParameter => "FormalParameter"
  | classBody => "ClassBody"
  | member => "Member"
  | memberDecl => "MemberDecl"
  | methodDecl => "MethodDecl"
  | constructorDecl => "ConstructorDecl"
  | fieldDecl => "FieldDecl"
  | enumConstant => "EnumConstant"
  | block => "Block"
  | tokenGroup => "TokenGroup"
  | balanced => "Balanced"
  | chunk => "Chunk"

/-- What the nonterminal reads. -/
@[reducible] def Value : Symbol → Type
  | compilationUnit => CompilationUnit
  | packageDecl => DottedName
  | importDecl => ImportDecl
  | typeDecl => TypeDecl
  | typeSpec => TypeSpec
  | modifier => Modifier
  | annotationUse => AnnotationUse
  | typeParam => TypeParam
  | typeRef => TypeRef
  | typeSegment => TypeSegment
  | typeArgs => List TypeRef
  | wildcard => Option (Bound × Option TypeRef)
  | arrayDim => Unit
  | parameterList => List FormalParameter
  | formalParameter => FormalParameter
  | classBody => List Member
  | member => Member
  | memberDecl => MemberDecl
  | methodDecl => MethodDecl
  | constructorDecl => ConstructorDecl
  | fieldDecl => FieldDecl
  | enumConstant =>
    String × Option (List Balanced) × Option (List Member) × Option Separator
  | block => List Balanced
  | tokenGroup => List Balanced
  | balanced => Balanced
  | chunk => Balanced

end Symbol

/-- A rule over these nonterminals. -/
abbrev DeclRule :=
  Rule Symbol.Value

namespace DeclRule

/-! ### Building blocks -/

/-- An identifier. -/
def ident : DeclRule String :=
  .token .identifier "ident"

/-- The nonterminal. -/
def sym (s : Symbol) : DeclRule s.Value :=
  .call s

/-- Array dimensions, counted. -/
def dims : DeclRule Nat :=
  .shaped List.length (fun n => List.replicate n ()) (.many (sym .arrayDim))

/-- A bracketed repetition. -/
def group {α : Type} (opening closing : String) (rule : DeclRule α) : DeclRule (List α) :=
  .shaped (fun ((), values, ()) => values) (fun values => ((), values, ()))
    (.seq (.word opening) (.seq (.many rule) (.word closing)))

/-- The segments of a dotted name after the first. -/
def moreSegments : DeclRule (List String) :=
  .many (ident.after ".")

/-- The clause of type parameters between angle brackets. -/
def typeParams : DeclRule (List TypeParam) :=
  Rule.bracketed "<" ">" (sym .typeParam)

/-- A clause of type references behind a keyword. -/
def typeClause (keyword : String) : DeclRule (List TypeRef) :=
  Rule.clause keyword "," (sym .typeRef)

/-- The shape of a value that is there or not. -/
def flag (rule : DeclRule Unit) : DeclRule Bool :=
  .shaped Option.isSome (fun b => if b then some () else none) (.opt rule)

/-! ### Files -/

/-- A package declaration. -/
def packageDecl : DeclRule DottedName :=
  .shaped (fun ((), head, tail, ()) => ⟨head, tail⟩) (fun name => ((), name.head, name.tail, ()))
    (.seq (.word "package") (.seq ident (.seq moreSegments (.word ";"))))

/-- A segment of an import after the first: a name or the star. -/
def importSegment : DeclRule (Option String) :=
  .shaped
    (fun
      | .inl name => some name
      | .inr () => none)
    (fun
      | some name => .inl name
      | none => .inr ())
    (.choice (.or ident (.last (.word "*"))))

/-- An import. -/
def importDecl : DeclRule ImportDecl :=
  .shaped (fun ((), isStatic, head, tail, ()) => ⟨isStatic, head, tail⟩)
    (fun i => ((), i.isStatic, i.head, i.tail, ()))
    (.seq (.word "import") (.seq (flag (.word "static")) (.seq ident
      (.seq (.many (importSegment.after ".")) (.word ";")))))

/-- A type at the top, or a stray semicolon. -/
def topLevel : DeclRule TopLevel :=
  .shaped
    (fun
      | .inl decl => .type decl
      | .inr () => .semicolon)
    (fun
      | .type decl => .inl decl
      | .semicolon => .inr ())
    (.choice (.or (sym .typeDecl) (.last (.word ";"))))

/-- A file. -/
def compilationUnit : DeclRule CompilationUnit :=
  .shaped (fun (packageDecl, imports, items) => ⟨packageDecl, imports, items⟩)
    (fun u => (u.packageDecl, u.imports, u.items))
    (.seq (.opt (sym .packageDecl)) (.seq (.many (sym .importDecl)) (.many topLevel)))

/-- A type with its modifiers. -/
def typeDecl : DeclRule TypeDecl :=
  .shaped (fun (pos, modifiers, spec) => ⟨pos, modifiers, spec⟩)
    (fun t => (t.pos, t.modifiers, t.spec))
    (.located (.seq (.many (sym .modifier)) (sym .typeSpec)))

/-- A type after its modifiers. -/
def typeSpec : DeclRule TypeSpec :=
  .shaped
    (fun (kind, name, typeParams, components, extended, implemented, permitted, members) =>
      ⟨⟨kind, name, typeParams, components, extended, implemented, permitted⟩, members⟩)
    (fun t =>
      (t.header.kind, t.header.name, t.header.typeParams, t.header.components, t.header.extended,
        t.header.implemented, t.header.permitted, t.members))
    (.seq (.pick TypeKind.all TypeKind.keyword) (.seq ident (.seq typeParams
      (.seq (.opt (sym .parameterList)) (.seq (typeClause "extends")
        (.seq (typeClause "implements") (.seq (typeClause "permits") (sym .classBody))))))))

/-! ### Modifiers and type references -/

/-- The modifier of three tokens. -/
def nonSealed : DeclRule Unit :=
  .shaped (fun _ => ()) (fun _ => ((), (), ()))
    (.seq (.word "non") (.seq (.word "-") (.word "sealed")))

/-- A modifier. -/
def modifier : DeclRule Modifier :=
  .shaped
    (fun
      | .inl use => .annotationUse use
      | .inr (.inl keyword) => .keyword keyword
      | .inr (.inr ()) => .nonSealed)
    (fun
      | .annotationUse use => .inl use
      | .keyword keyword => .inr (.inl keyword)
      | .nonSealed => .inr (.inr ()))
    (.choice (.or (sym .annotationUse)
      (.or (.pick Keyword.all Keyword.text) (.last nonSealed))))

/-- An annotation. -/
def annotationUse : DeclRule AnnotationUse :=
  .shaped (fun ((), head, tail, args) => ⟨⟨head, tail⟩, args⟩)
    (fun a => ((), a.name.head, a.name.tail, a.args))
    (.seq (.word "@") (.seq ident (.seq moreSegments (.opt (sym .tokenGroup)))))

/-- A type parameter. -/
def typeParam : DeclRule TypeParam :=
  .shaped (fun (annotations, name, bounds) => ⟨annotations, name, bounds⟩)
    (fun p => (p.annotations, p.name, p.bounds))
    (.seq (.many (sym .annotationUse)) (.seq ident (Rule.clause "extends" "&" (sym .typeRef))))

/-- What a type reference names: a wildcard or segments. -/
def typeCore : DeclRule (Option (Bound × Option TypeRef) ⊕ TypeSegment × List TypeSegment) :=
  .choice (.or (sym .wildcard)
    (.last (.seq (sym .typeSegment) (.many ((sym .typeSegment).after ".")))))

/-- A type reference. -/
def typeRef : DeclRule TypeRef :=
  .shaped
    (fun
      | (annotations, .inl none, dims) => .wildcard annotations dims
      | (annotations, .inl (some (bound, none)), dims) => .unfinished annotations bound dims
      | (annotations, .inl (some (bound, some type)), dims) => .bounded annotations bound type dims
      | (annotations, .inr (first, others), dims) => .named annotations first others dims)
    (fun
      | .wildcard annotations dims => (annotations, .inl none, dims)
      | .unfinished annotations bound dims => (annotations, .inl (some (bound, none)), dims)
      | .bounded annotations bound type dims => (annotations, .inl (some (bound, some type)), dims)
      | .named annotations first others dims => (annotations, .inr (first, others), dims))
    (.seq (.many (sym .annotationUse)) (.seq typeCore dims))

/-- A segment of a type's name. -/
def typeSegment : DeclRule TypeSegment :=
  .shaped
    (fun
      | (name, none) => .plain name
      | (name, some args) => .applied name args)
    (fun
      | .plain name => (name, none)
      | .applied name args => (name, some args))
    (.seq ident (.opt (sym .typeArgs)))

/-- Type arguments. -/
def typeArgs : DeclRule (List TypeRef) :=
  Rule.enclosed "<" ">" (sym .typeRef)

/-- A wildcard and its bound. The keyword of a bound stays behind when no type can be read after it. -/
def wildcard : DeclRule (Option (Bound × Option TypeRef)) :=
  Rule.after "?" (.kept (.pick Bound.all Bound.keyword) (sym .typeRef))

/-- One pair of square brackets. -/
def arrayDim : DeclRule Unit :=
  .shaped (fun _ => ()) (fun _ => ((), ())) (.seq (.word "[") (.word "]"))

/-! ### Members -/

/-- The parameters between parentheses. -/
def parameterList : DeclRule (List FormalParameter) :=
  Rule.enclosed "(" ")" (sym .formalParameter)

/-- A parameter. -/
def formalParameter : DeclRule FormalParameter :=
  .shaped (fun (modifiers, type, variadic, name, dims) => ⟨modifiers, type, variadic, name, dims⟩)
    (fun p => (p.modifiers, p.type, p.variadic, p.name, p.dims))
    (.seq (.many (sym .modifier)) (.seq (sym .typeRef)
      (.seq (flag (.word "...")) (.seq ident dims))))

/-- The members between braces. -/
def classBody : DeclRule (List Member) :=
  group "\x7b" "\x7d" (sym .member)

/-- A member. -/
def member : DeclRule Member :=
  .shaped
    (fun
      | (pos, .inl ()) => .empty pos
      | (pos, .inr (modifiers, decl)) => .declared pos modifiers decl)
    (fun
      | .empty pos => (pos, .inl ())
      | .declared pos modifiers decl => (pos, .inr (modifiers, decl)))
    (.located (.choice (.or (.word ";")
      (.last (.seq (.many (sym .modifier)) (sym .memberDecl))))))

/-- What a member declares; the order of the alternatives decides between them. -/
def memberDecl : DeclRule MemberDecl :=
  .shaped
    (fun
      | .inl body => .initializer body
      | .inr (.inl spec) => .type spec.header spec.members
      | .inr (.inr (.inl method)) => .method method
      | .inr (.inr (.inr (.inl constructor))) => .constructor constructor
      | .inr (.inr (.inr (.inr (.inl field)))) => .field field
      | .inr (.inr (.inr (.inr (.inr (name, args, body, separator))))) =>
        .enumConstant name args body separator)
    (fun
      | .initializer body => .inl body
      | .type header members => .inr (.inl ⟨header, members⟩)
      | .method method => .inr (.inr (.inl method))
      | .constructor constructor => .inr (.inr (.inr (.inl constructor)))
      | .field field => .inr (.inr (.inr (.inr (.inl field))))
      | .enumConstant name args body separator =>
        .inr (.inr (.inr (.inr (.inr (name, args, body, separator))))))
    (.choice (.or (sym .block) (.or (sym .typeSpec) (.or (sym .methodDecl)
      (.or (sym .constructorDecl) (.or (sym .fieldDecl) (.last (sym .enumConstant))))))))

/-- The default value of an annotation's method. -/
def defaultValue : DeclRule (Option (List Balanced)) :=
  .opt ((Rule.many1 (sym .chunk)).after "default")

/-- The body of a method, or the semicolon in place of one. -/
def methodBody : DeclRule (Option (List Balanced)) :=
  .shaped
    (fun
      | .inl body => some body
      | .inr () => none)
    (fun
      | some body => .inl body
      | none => .inr ())
    (.choice (.or (sym .block) (.last (.word ";"))))

/-- A method. -/
def methodDecl : DeclRule MethodDecl :=
  .shaped
    (fun (typeParams, returns, name, params, dims, throws, defaultValue, body) =>
      ⟨typeParams, returns, name, params, dims, throws, defaultValue, body⟩)
    (fun m =>
      (m.typeParams, m.returns, m.name, m.params, m.dims, m.throws, m.defaultValue, m.body))
    (.seq typeParams (.seq (sym .typeRef) (.seq ident (.seq (sym .parameterList)
      (.seq dims (.seq (typeClause "throws") (.seq defaultValue methodBody)))))))

/-- A constructor. -/
def constructorDecl : DeclRule ConstructorDecl :=
  .shaped (fun (typeParams, name, params, throws, body) => ⟨typeParams, name, params, throws, body⟩)
    (fun c => (c.typeParams, c.name, c.params, c.throws, c.body))
    (.seq typeParams (.seq ident (.seq (.opt (sym .parameterList))
      (.seq (typeClause "throws") (sym .block)))))

/-- A field. -/
def fieldDecl : DeclRule FieldDecl :=
  .shaped (fun (type, name, rest, ()) => ⟨type, name, rest⟩)
    (fun f => (f.type, f.name, f.rest, ()))
    (.seq (sym .typeRef) (.seq ident (.seq (.many (sym .chunk)) (.word ";"))))

/-- A constant of an enum. -/
def enumConstant :
    DeclRule (String × Option (List Balanced) × Option (List Member) × Option Separator) :=
  .seq ident (.seq (.opt (sym .tokenGroup)) (.seq (.opt (sym .classBody))
    (.opt (.pick Separator.all Separator.text))))

/-! ### Uninterpreted tokens -/

/-- Tokens between braces. -/
def block : DeclRule (List Balanced) :=
  group "\x7b" "\x7d" (sym .balanced)

/-- Tokens between parentheses. -/
def tokenGroup : DeclRule (List Balanced) :=
  group "(" ")" (sym .balanced)

/-- A group, or a token that is not one of the given marks. -/
def balancedUnless (stops : List String) : DeclRule Balanced :=
  .shaped
    (fun
      | .inl inner => .parens inner
      | .inr (.inl inner) => .braces inner
      | .inr (.inr text) => .token text)
    (fun
      | .parens inner => .inl inner
      | .braces inner => .inr (.inl inner)
      | .token text => .inr (.inr text))
    (.choice (.or (sym .tokenGroup) (.or (sym .block) (.last (.other stops)))))

end DeclRule

/-- The rule behind each nonterminal. -/
def productions : (s : Symbol) → DeclRule s.Value
  | .compilationUnit => DeclRule.compilationUnit
  | .packageDecl => DeclRule.packageDecl
  | .importDecl => DeclRule.importDecl
  | .typeDecl => DeclRule.typeDecl
  | .typeSpec => DeclRule.typeSpec
  | .modifier => DeclRule.modifier
  | .annotationUse => DeclRule.annotationUse
  | .typeParam => DeclRule.typeParam
  | .typeRef => DeclRule.typeRef
  | .typeSegment => DeclRule.typeSegment
  | .typeArgs => DeclRule.typeArgs
  | .wildcard => DeclRule.wildcard
  | .arrayDim => DeclRule.arrayDim
  | .parameterList => DeclRule.parameterList
  | .formalParameter => DeclRule.formalParameter
  | .classBody => DeclRule.classBody
  | .member => DeclRule.member
  | .memberDecl => DeclRule.memberDecl
  | .methodDecl => DeclRule.methodDecl
  | .constructorDecl => DeclRule.constructorDecl
  | .fieldDecl => DeclRule.fieldDecl
  | .enumConstant => DeclRule.enumConstant
  | .block => DeclRule.block
  | .tokenGroup => DeclRule.tokenGroup
  | .balanced => DeclRule.balancedUnless ["(", ")", "\x7b", "\x7d"]
  | .chunk => DeclRule.balancedUnless [";", "(", ")", "\x7b", "\x7d"]

/-- The grammar of declarations. -/
def declarations : Grammar.Language Symbol :=
  ⟨Symbol.Value, Symbol.name, productions⟩

end Forwarder.Source
