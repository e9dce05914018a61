/-
**Scopes.** What the simple names inside one declaration stand for.

A name is a type variable, the declared type itself, an imported type, a type of the same package or
of a package imported on demand; a name that is none of these stays as it is written.

* `Scope.reading` — what has to be tried for a name, and in which order.
* `Scope.qualify` — the qualified name.
* `Scope.searched` — the types a library was asked for on the way.
* `Scope.method` — a declared method with all its types qualified.
-/

import Forwarder.Loading.Library
import Forwarder.Method

namespace Forwarder

open Source

/-- What surrounds the names in a declaration. -/
structure Scope where
  packageName : String
  ownName : String
  /-- Qualified names under simple ones; the first entry counts. -/
  imports : List (String × String)
  onDemand : List String
  typeVars : List String
  inInterface : Bool

/-- How a simple name is read: as a certain name, or as the first of several types that exists. -/
inductive Reading
  | fixed (name : String)
  | firstOf (candidates : List String)
deriving DecidableEq, Repr

/-- The candidates up to the first that passes the test, this one included. -/
def triedUntil (test : String → Bool) : List String → List String
  | [] => []
  | name :: names => if test name then [name] else name :: triedUntil test names

namespace Scope

/-- The scope of a declaration in a file. -/
def of (u : CompilationUnit) (decl : TypeDecl) : Scope where
  packageName := u.packageName.getD ""
  ownName := decl.spec.header.name
  imports := (u.imports.filter fun i => !i.isStatic && !i.onDemand).map fun i =>
    (TypeName.simpleName i.name, i.name)
  onDemand := u.onDemandPackages
  typeVars := decl.spec.typeParamNames
  inInterface := decl.spec.header.kind.isInterface

/-- A name inside a package; the unnamed package adds nothing. -/
def inPackage (s : Scope) (simple : String) : String :=
  if s.packageName.isEmpty then simple else s.packageName ++ "." ++ simple

/-- The name stands for itself: a type variable, a primitive type or a word between types. -/
def isOwnMeaning (s : Scope) (vars : List String) (simple : String) : Bool :=
  vars.contains simple || s.typeVars.contains simple || isPrimitive simple ||
    simple == "extends" || simple == "super"

/-- How a simple name is read, where `vars` are further type variables. -/
def reading (s : Scope) (vars : List String) (simple : String) : Reading :=
  if s.isOwnMeaning vars simple then .fixed simple
  else if simple = s.ownName then .fixed (s.inPackage simple)
  else
    match s.imports.lookup simple with
    | some name => .fixed name
    | none =>
      let packages := (if s.packageName.isEmpty then [] else [s.packageName]) ++ s.onDemand
      .firstOf (packages.map (· ++ "." ++ simple))

/-- The qualified name of a simple one. -/
def qualify (s : Scope) (lib : Library) (vars : List String) (simple : String) : String :=
  match s.reading vars simple with
  | .fixed name => name
  | .firstOf candidates => (candidates.find? lib.holds).getD simple

/-- The types that the library is asked for to qualify a simple name. -/
def searched (s : Scope) (lib : Library) (vars : List String) (simple : String) : List String :=
  match s.reading vars simple with
  | .fixed _ => []
  | .firstOf candidates => triedUntil lib.holds candidates

/-- A type with all its simple names qualified. -/
def qualifyType (s : Scope) (lib : Library) (vars : List String) (type : String) : String :=
  TypeName.mapIdentifiers (s.qualify lib vars) type

/-- The types that the library is asked for to qualify a type. -/
def searchedIn (s : Scope) (lib : Library) (vars : List String) (type : String) : List String :=
  (TypeName.identifiers type).flatMap (s.searched lib vars)

/-! ### Supertypes -/

/-- The supertypes that are known without a source, all of one package. -/
def wellKnown : List String :=
  ["Object", "Comparable", "Iterable", "Cloneable", "Runnable", "AutoCloseable", "CharSequence",
    "Appendable", "Readable", "Number", "Enum", "Record", "Throwable", "Exception"]

/-- The qualified name of a supertype. A dotted name is taken as it is. -/
def qualifySupertype (s : Scope) (lib : Library) (name : String) : String :=
  if TypeName.isDotted name then name
  else
    let qualified := s.qualify lib [] name
    if qualified = name ∧ wellKnown.contains name then "java.lang." ++ name else qualified

/-- The types that the library is asked for to qualify a supertype. -/
def searchedSupertype (s : Scope) (lib : Library) (name : String) : List String :=
  if TypeName.isDotted name then [] else s.searched lib [] name

/-- The type arguments of a supertype. -/
def typeArguments (s : Scope) (lib : Library) (ref : TypeRef) : List String :=
  ref.typeArguments.map fun arg => s.qualifyType lib [] arg.render

/-! ### Methods -/

/-- The access level of a method; in an interface a method is public unless it says otherwise. -/
def visibility (s : Scope) (m : MethodMember) : Visibility :=
  match m.access with
  | some keyword => .ofName keyword.text
  | none => if s.inInterface then .publicly else .packagePrivate

/-- The method has no body: by its modifier, or in an interface by having neither body nor a
modifier that asks for one. -/
def isAbstract (s : Scope) (m : MethodMember) : Bool :=
  m.has .abstractMember ||
    (s.inInterface && !m.has .staticMember && !m.has .defaultMethod && m.method.body.isNone)

/-- A declared method with its types qualified. -/
def method (s : Scope) (lib : Library) (declaredIn : String) (m : MethodMember) : Method :=
  let qualified := s.qualifyType lib (m.method.typeParams.map (·.name))
  { name := m.method.name
    params := m.method.params.map fun p => ⟨qualified p.typeText, p.name, p.variadic⟩
    returns := qualified m.method.returnText
    visibility := s.visibility m
    isStatic := m.has .staticMember
    isFinal := m.has .finalMember
    isAbstract := s.isAbstract m
    typeParams := m.method.typeParams.map fun p => qualified p.render
    throws := m.method.throws.map fun r => qualified r.render
    declaredIn }

/-- The types in the declaration of a method. -/
def typesOf (m : MethodMember) : List String :=
  m.method.returnText :: m.method.params.map (·.typeText) ++
    m.method.typeParams.map (·.render) ++ m.method.throws.map (·.render)

/-- The types that the library is asked for to qualify a method. -/
def searchedMethod (s : Scope) (lib : Library) (m : MethodMember) : List String :=
  (typesOf m).flatMap (s.searchedIn lib (m.method.typeParams.map (·.name)))

end Scope

end Forwarder
