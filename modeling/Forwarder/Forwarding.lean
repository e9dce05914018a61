/-
**Forwarding classes.** From a decorator declaration and the surface of the decorated type to the
class that implements the declaration: it holds a delegate and forwards every method that can be
overridden to it. A method whose value is again of the decorated type returns it decorated.

* `Forwarding.forwarded` — the methods of the surface that get a forwarding method.
* `Forwarding.override` — what the forwarding method of a method looks like.
* `Forwarding.method` — the forwarding method of a method that a subclass may see.
* `Forwarding.synthesize` — the generated file, if the surface describes the decorated type.
-/

import Forwarder.Decoration.Basic
import Forwarder.Emit.Unit
import Forwarder.Failure
import Forwarder.Surface

namespace Forwarder

/-- A generated file. -/
structure GeneratedUnit where
  packageName : String
  className : String
  source : String
deriving DecidableEq, Repr

/-- The path of the file below the output directory: the package with slashes, and the class. -/
def GeneratedUnit.relativePath (u : GeneratedUnit) : String :=
  let dir := Text.join "/" (Text.split '.' u.packageName)
  if dir.isEmpty then u.className ++ ".java" else dir ++ "/" ++ u.className ++ ".java"

namespace Forwarding

open Emit

/-- The comment at the top of every generated file. -/
def headerText : String :=
  "Code generated by decorator. DO NOT EDIT."

/-- The first line of every generated file. -/
def headerLine : String :=
  "// " ++ headerText

/-- The package that holds all generated packages. -/
def packageRoot : String :=
  "decorator"

/-- The field, and the constructor's parameter, that hold the delegate. -/
def delegateName : String :=
  "delegate"

/-- The method that gives the delegate out. -/
def accessorName : String :=
  "getDelegate"

/-- A type name with type arguments. -/
def parameterized (name : String) (args : List String) : String :=
  if args.isEmpty then name else name ++ "<" ++ Text.join ", " args ++ ">"

/-! ### Names derived from the declaration -/

section Names

variable (d : Decoration)

/-- The package of the generated class. -/
def packageName : String :=
  packageRoot ++ "." ++ d.packageName

/-- The imports of the generated file: the decorated type and the declared class. -/
def imports : Imports :=
  ((Imports.none (packageName d)).addAll [d.decorated, d.qualifiedName]).2

/-- The generated class as a type. -/
def implType : String :=
  parameterized d.implName (TypeName.typeParamNames d.typeParams)

/-- The declared class as a type. -/
def declaredType : String :=
  parameterized d.className (TypeName.typeParamNames d.typeParams)

/-- The type of the delegate. -/
def delegateType : String :=
  parameterized d.decoratedSimpleName d.typeArgs

/-- What stands for the type parameters of the surface. -/
def typeArguments (s : Surface) : TypeName.Substitution :=
  .ofArguments (TypeName.typeParamNames s.typeParams) d.typeArgs []

/-- A type without spaces. -/
def compact (type : String) : String :=
  String.ofList (type.toList.filter (· != ' '))

/-- The text spells the type of the delegate, with or without its package. -/
def isDelegateType (type : String) : Bool :=
  let rest := type.toList.drop d.decorated.length
  let spelled :=
    if Text.startsBy type d.decorated && (rest.isEmpty || rest.head? == some '<') then
      d.decoratedSimpleName ++ String.ofList rest
    else type
  compact spelled == compact (delegateType d)

end Names

/-! ### Methods -/

/-- The methods that get a forwarding method: those that can be overridden, one for each key, and
not the accessor of the delegate. -/
def forwarded (s : Surface) : List Method :=
  Method.unseen [accessorName ++ "()"] s.overridable

/-- The value of the method is of the decorated type. Type variables are not. -/
def chains (s : Surface) (m : Method) : Bool :=
  let erased := TypeName.eraseType m.returns
  !(TypeName.typeParamNames m.typeParams).contains erased &&
    !(TypeName.typeParamNames s.typeParams).contains erased && s.isA erased

/-- The call of the delegate's method. -/
def delegateCall (m : Method) : Expr :=
  .send (.thisField delegateName) m.name (m.params.map fun p => .name p.name)

/-- The override of a method that calls the delegate. -/
def override (d : Decoration) (s : Surface) (m : Method) : MethodDef :=
  let resolve := TypeName.substitute (typeArguments d s) (TypeName.typeParamNames m.typeParams)
  let returns := resolve m.returns
  let call := delegateCall m
  let forwarding : MethodDef :=
    { modifiers := [m.visibility.name]
      typeParams := m.typeParams.map resolve
      returns
      name := m.name
      params := m.params.map fun p => ⟨resolve p.type, p.name, p.variadic⟩
      throws := m.throws.map resolve
      body := [.returns call] }
  if m.isVoid then { forwarding with body := [.run call] }
  else if chains s m then
    let value := if isDelegateType d returns then call else .cast (delegateType d) call
    { forwarding with
      returns := declaredType d
      body := [.returns (.create (implType d) [value])] }
  else forwarding

/-- The forwarding method of a method. Only a method that is public or protected can have one. -/
def method (d : Decoration) (s : Surface) (m : Method) : Except Failure MethodDef :=
  match m.visibility with
  | .publicly | .protectedly => .ok (override d s m)
  | .privately | .packagePrivate =>
    .error (.brokenInvariant ("method " ++ m.signature ++ " of " ++ s.name ++
      " reached emission with " ++ m.visibility.name ++ " visibility"))

/-! ### Classes -/

/-- The field of the delegate. -/
def delegateField (d : Decoration) : FieldDef :=
  ⟨["private", "final"], delegateType d, delegateName⟩

/-- The constructor that takes the delegate. -/
def delegateConstructor (d : Decoration) : ConstructorDef :=
  ⟨["public"], d.implName, [⟨delegateType d, delegateName, false⟩],
    [.assign (.thisField delegateName) (.name delegateName)]⟩

/-- The accessor of the delegate. -/
def accessor (d : Decoration) : MethodDef :=
  ⟨["public"], [], delegateType d, accessorName, [], [], [.returns (.thisField delegateName)]⟩

/-- The generated class, with these forwarding methods. -/
def implClass (d : Decoration) (methods : List MethodDef) : ClassDef :=
  { modifiers := ["public"]
    name := d.implName
    typeParams := d.typeParams
    superclass := declaredType d
    interfaces := []
    fields := [delegateField d]
    constructors := [delegateConstructor d]
    methods := accessor d :: methods }

/-- The generated file, with these forwarding methods. -/
def unit (d : Decoration) (methods : List MethodDef) : CompilationUnit :=
  ⟨[headerText], packageName d, (imports d).names, [implClass d methods]⟩

/-- The generated file of a declaration, from the surface of the decorated type. -/
def synthesize (d : Decoration) (surface : Option Surface) : Except Failure GeneratedUnit :=
  if d.isValid then
    match surface with
    | none => .error (.ofCode .generation ("no type surface for " ++ d.decorated))
    | some s =>
      if s.name = d.decorated then
        match (forwarded s).mapM (method d s) with
        | .error failure => .error failure
        | .ok methods => .ok ⟨packageName d, d.implName, (unit d methods).render⟩
      else
        .error (.ofCode .generation
          ("type surface " ++ s.name ++ " does not describe " ++ d.decorated))
  else .error (.ofCode .generation "decorator metadata is incomplete")

end Forwarding

end Forwarder
