/-
**Loading.** The surface of a type from its declaration and those of its supertypes.

The supertypes are gone through depth first, each type once: a type that was visited before adds its
name and nothing else. Of several methods with one signature the first is kept, and a type's own
methods come before inherited ones. A supertype that cannot be loaded is named and passed over.

* `Library.loadWithin` — the surface of a type, with a bound on the depth of the search.
* `Library.addSupertype` — what one supertype adds.
* `Trace` — which types were visited, and which the library was asked for.
-/

import Forwarder.Loading.Scope
import Forwarder.Surface

namespace Forwarder

open Source

/-- The root of all types. -/
def rootType : String :=
  "java.lang.Object"

/-- What a search has done so far. -/
structure Trace where
  /-- The types whose declarations were looked for. -/
  visited : List String
  /-- The types that the library was asked for, the visited ones included. -/
  asked : List String

namespace Trace

/-- Nothing has been done. -/
def start : Trace :=
  ⟨[], []⟩

/-- One more type is visited. -/
def visit (t : Trace) (name : String) : Trace :=
  ⟨name :: t.visited, name :: t.asked⟩

/-- The library was asked for some more types. -/
def ask (t : Trace) (names : List String) : Trace :=
  { t with asked := names ++ t.asked }

end Trace

/-! ### Inheritance -/

/-- A method with type arguments for the type variables around it. Its own type variables stay. -/
def Method.substituted (m : Method) (mapping : TypeName.Substitution) : Method :=
  let resolve := TypeName.substitute mapping (TypeName.typeParamNames m.typeParams)
  { m with
    returns := resolve m.returns
    params := m.params.map fun p => { p with type := resolve p.type }
    throws := m.throws.map resolve
    typeParams := m.typeParams.map resolve }

/-- The methods of a supertype as a subtype inherits them with its type arguments. -/
def Surface.inherited (s : Surface) (args : List String) : List Method :=
  let mapping := TypeName.Substitution.ofArguments (TypeName.typeParamNames s.typeParams) args []
  s.methods.map (·.substituted mapping)

/-- A public method of the root type. -/
def rootMethod (name returns : String) (params : List Parameter) : Method :=
  ⟨name, params, returns, .publicly, false, false, false, [], [], rootType⟩

/-- The methods that every class inherits from the root type; interfaces do not. -/
def rootMethods : List Method :=
  [rootMethod "equals" "boolean" [⟨"Object", "obj", false⟩], rootMethod "hashCode" "int" [],
    rootMethod "toString" "String" []]

/-! ### The search -/

/-- What has been gathered from the supertypes so far. -/
structure Gathered where
  supertypes : List String
  methods : List Method
  trace : Trace

/-- How a supertype is loaded. -/
abbrev LoadStep :=
  String → Trace → Except Failure Surface × Trace

namespace Library

/-- Adds a supertype. It is named unless it is the root type; its supertypes and methods are added
if it is visited for the first time and can be loaded. -/
def addSupertype (lib : Library) (scope : Scope) (load : LoadStep) (g : Gathered) (ref : TypeRef) :
    Gathered :=
  let name := scope.qualifySupertype lib ref.qualifiedName
  let g := { g with trace := g.trace.ask (scope.searchedSupertype lib ref.qualifiedName) }
  if name = rootType then g
  else
    let g := { g with supertypes := g.supertypes ++ [name] }
    if g.trace.visited.contains name then g
    else
      match load name g.trace with
      | (.error _, trace) => { g with trace }
      | (.ok s, trace) =>
        let asked := ref.typeArguments.flatMap fun arg => scope.searchedIn lib [] arg.render
        ⟨g.supertypes ++ s.supertypes.filter (· != rootType),
          g.methods ++ s.inherited (scope.typeArguments lib ref), trace.ask asked⟩

/-- The types that the library is asked for by the own types of a declaration. -/
def searchedOwn (lib : Library) (scope : Scope) (spec : TypeSpec) : List String :=
  (spec.header.typeParams.flatMap fun p => scope.searchedIn lib [] p.render) ++
    spec.methods.flatMap (scope.searchedMethod lib)

/-- The surface of a declaration whose supertypes are loaded by `load`. -/
def surfaceOf (lib : Library) (load : LoadStep) (name : String) (u : CompilationUnit)
    (decl : TypeDecl) (t : Trace) : Surface × Trace :=
  let scope := Scope.of u decl
  let own := decl.spec.methods.map (scope.method lib name)
  let start : Gathered := ⟨[], own, t.ask (lib.searchedOwn scope decl.spec)⟩
  let g := decl.spec.supertypes.foldl (lib.addSupertype scope load) start
  let rooted := if scope.inInterface then [] else rootMethods
  (⟨name, decl.spec.header.typeParams.map fun p => scope.qualifyType lib [] p.render,
    firstOccurrences (g.supertypes ++ [rootType]), Method.unseen [] (g.methods ++ rooted)⟩,
    g.trace)

/-- The surface of a type. At most `bound` types are open at a time; a type that would be opened
beyond that counts as not found. -/
def loadWithin (lib : Library) : Nat → LoadStep
  | 0, name, t => (.error (.typeNotFound name none), t)
  | bound + 1, name, t =>
    let t := t.visit name
    match lib.declaration name with
    | .error failure => (.error failure, t)
    | .ok (u, decl) =>
      let (surface, t) := lib.surfaceOf (lib.loadWithin bound) name u decl t
      (.ok surface, t)

end Library

end Forwarder
