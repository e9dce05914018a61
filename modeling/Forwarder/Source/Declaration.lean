/-
**Declarations.** What a source file declares: its package, its imports, its types and their
members. Bodies, initializers and annotation arguments are kept as uninterpreted tokens.

* `Member`, `MemberDecl` — the members of a type, nested types included.
* `TypeDecl` — a top-level type.
* `CompilationUnit` — a whole file, and the questions the tool asks of it.
-/

import Forwarder.Source.Token
import Forwarder.Source.TypeRef

namespace Forwarder.Source

/-! ### Modifiers -/

/-- The keywords in front of a declaration. -/
inductive Keyword
  | publicAccess
  | protectedAccess
  | privateAccess
  | staticMember
  | abstractMember
  | finalMember
  | nativeMethod
  | synchronizedMethod
  | transientField
  | volatileField
  | strictMath
  | defaultMethod
  | sealedType
deriving DecidableEq, Repr

/-- The keyword as it is written. -/
def Keyword.text : Keyword → String
  | .publicAccess => "public"
  | .protectedAccess => "protected"
  | .privateAccess => "private"
  | .staticMember => "static"
  | .abstractMember => "abstract"
  | .finalMember => "final"
  | .nativeMethod => "native"
  | .synchronizedMethod => "synchronized"
  | .transientField => "transient"
  | .volatileField => "volatile"
  | .strictMath => "strictfp"
  | .defaultMethod => "default"
  | .sealedType => "sealed"

/-- All keywords. -/
def Keyword.all : List Keyword :=
  [.publicAccess, .protectedAccess, .privateAccess, .staticMember, .abstractMember, .finalMember,
    .nativeMethod, .synchronizedMethod, .transientField, .volatileField, .strictMath,
    .defaultMethod, .sealedType]

/-- An annotation or a keyword in front of a declaration. -/
inductive Modifier
  | annotationUse (use : AnnotationUse)
  | keyword (keyword : Keyword)
  /-- The modifier `non-sealed`, which is three tokens. -/
  | nonSealed
deriving Repr

/-- The modifiers hold the keyword. -/
def hasKeyword (modifiers : List Modifier) (keyword : Keyword) : Bool :=
  modifiers.any fun
    | .keyword k => k == keyword
    | _ => false

/-! ### Members -/

/-- A parameter of a method or constructor, or a component of a record. -/
structure FormalParameter where
  modifiers : List Modifier
  type : TypeRef
  variadic : Bool
  name : String
  dims : Nat
deriving Repr

/-- The parameter's type with the dimensions behind its name, without the mark of a variadic one. -/
def FormalParameter.typeText (p : FormalParameter) : String :=
  p.type.render ++ brackets p.dims

/-- A method, abstract (no body) or not. -/
structure MethodDecl where
  typeParams : List TypeParam
  returns : TypeRef
  name : String
  params : List FormalParameter
  dims : Nat
  throws : List TypeRef
  defaultValue : Option (List Balanced)
  body : Option (List Balanced)
deriving Repr

/-- The return type with the dimensions behind the parameter list. -/
def MethodDecl.returnText (m : MethodDecl) : String :=
  m.returns.render ++ brackets m.dims

/-- A constructor; the compact constructor of a record has no parameter list. -/
structure ConstructorDecl where
  typeParams : List TypeParam
  name : String
  params : Option (List FormalParameter)
  throws : List TypeRef
  body : List Balanced
deriving Repr

/-- A field. Only the first name is singled out; the rest of the declaration is kept as tokens. -/
structure FieldDecl where
  type : TypeRef
  name : String
  rest : List Balanced
deriving Repr

/-- The kinds of types. -/
inductive TypeKind
  | classKind
  | interfaceKind
  | enumKind
  | recordKind
  | annotationKind
deriving DecidableEq, Repr

/-- The keyword of a kind. -/
def TypeKind.keyword : TypeKind → String
  | .classKind => "class"
  | .interfaceKind => "interface"
  | .enumKind => "enum"
  | .recordKind => "record"
  | .annotationKind => "@interface"

/-- All kinds of types. -/
def TypeKind.all : List TypeKind :=
  [.classKind, .interfaceKind, .enumKind, .recordKind, .annotationKind]

/-- An interface or an annotation type. -/
def TypeKind.isInterface : TypeKind → Bool
  | .interfaceKind | .annotationKind => true
  | _ => false

/-- The head of a type declaration, from its kind to its last clause. -/
structure TypeHeader where
  kind : TypeKind
  name : String
  typeParams : List TypeParam
  components : Option (List FormalParameter)
  extended : List TypeRef
  implemented : List TypeRef
  permitted : List TypeRef
deriving Repr

/-- What follows an enum constant. -/
inductive Separator
  | comma
  | semicolon
deriving DecidableEq, Repr

/-- The mark itself. -/
def Separator.text : Separator → String
  | .comma => ","
  | .semicolon => ";"

/-- Both marks. -/
def Separator.all : List Separator :=
  [.comma, .semicolon]

mutual

/-- A member of a type's body. -/
inductive Member
  /-- A stray semicolon. -/
  | empty (pos : Position)
  /-- A declaration with the modifiers in front of it. -/
  | declared (pos : Position) (modifiers : List Modifier) (decl : MemberDecl)

/-- What a member declares. -/
inductive MemberDecl
  | initializer (body : List Balanced)
  | type (header : TypeHeader) (members : List Member)
  | method (method : MethodDecl)
  | constructor (constructor : ConstructorDecl)
  | field (field : FieldDecl)
  | enumConstant (name : String) (args : Option (List Balanced)) (body : Option (List Member))
      (separator : Option Separator)

end

deriving instance Repr for Member, MemberDecl

/-! ### Types -/

/-- The declaration of a type after its modifiers. -/
structure TypeSpec where
  header : TypeHeader
  members : List Member
deriving Repr

/-- A method with the modifiers in front of it. -/
structure MethodMember where
  modifiers : List Modifier
  method : MethodDecl
deriving Repr

namespace MethodMember

/-- The method carries the keyword. -/
def has (m : MethodMember) (keyword : Keyword) : Bool :=
  hasKeyword m.modifiers keyword

/-- The access keyword of the method, `public` before `protected` before `private`. -/
def access (m : MethodMember) : Option Keyword :=
  [Keyword.publicAccess, .protectedAccess, .privateAccess].find? m.has

end MethodMember

namespace TypeSpec

/-- The names of the declared type variables. -/
def typeParamNames (t : TypeSpec) : List String :=
  t.header.typeParams.map (·.name)

/-- The extended types, then the implemented ones. -/
def supertypes (t : TypeSpec) : List TypeRef :=
  t.header.extended ++ t.header.implemented

/-- The methods of the body in the order of their declarations. -/
def methods (t : TypeSpec) : List MethodMember :=
  t.members.filterMap fun
    | .declared _ modifiers (.method method) => some ⟨modifiers, method⟩
    | _ => none

end TypeSpec

/-- A type declared at the top of a file. -/
structure TypeDecl where
  pos : Position
  modifiers : List Modifier
  spec : TypeSpec
deriving Repr

/-! ### Files -/

/-- An import. The star of an on-demand import is a missing segment. -/
structure ImportDecl where
  isStatic : Bool
  head : String
  tail : List (Option String)
deriving DecidableEq, Repr

namespace ImportDecl

/-- The segments of the name, with the star as it is written. -/
def segments (i : ImportDecl) : List String :=
  i.head :: i.tail.map (·.getD "*")

/-- The name as it is written. -/
def name (i : ImportDecl) : String :=
  Text.join "." i.segments

/-- The import ends in a star. -/
def onDemand (i : ImportDecl) : Bool :=
  i.tail.getLast? == some none

/-- The imported name: that of the package for an on-demand import. -/
def target (i : ImportDecl) : String :=
  Text.join "." (if i.onDemand then i.segments.dropLast else i.segments)

end ImportDecl

/-- What stands at the top of a file after its imports. -/
inductive TopLevel
  | type (decl : TypeDecl)
  | semicolon
deriving Repr

/-- A source file. -/
structure CompilationUnit where
  packageDecl : Option DottedName
  imports : List ImportDecl
  items : List TopLevel
deriving Repr

/-- The elements of a list without repetitions, each at its first place. -/
def firstOccurrences : List String → List String
  | [] => []
  | name :: names => name :: (firstOccurrences names).filter (· != name)

namespace CompilationUnit

/-- The types declared at the top. -/
def types (u : CompilationUnit) : List TypeDecl :=
  u.items.filterMap fun
    | .type decl => some decl
    | .semicolon => none

/-- The declared package. -/
def packageName (u : CompilationUnit) : Option String :=
  u.packageDecl.map (·.render)

/-- The imported names in the order of the file, without repetitions. -/
def importNames (u : CompilationUnit) : List String :=
  firstOccurrences (u.imports.map (·.target))

/-- The packages that are imported on demand. -/
def onDemandPackages (u : CompilationUnit) : List String :=
  (u.imports.filter fun i => i.onDemand && !i.isStatic).map (·.target)

/-- The first class or interface at the top. -/
def topLevelClass? (u : CompilationUnit) : Option TypeDecl :=
  u.types.find? fun t =>
    t.spec.header.kind == .classKind || t.spec.header.kind == .interfaceKind

/-- How many supertypes the types at the top are declared with. -/
def supertypeCount (u : CompilationUnit) : Nat :=
  (u.types.flatMap (·.spec.supertypes)).length

/-- The type declared at the top under a name. -/
def findType? (u : CompilationUnit) (name : String) : Option TypeDecl :=
  u.types.find? (·.spec.header.name == name)

end CompilationUnit

end Forwarder.Source
