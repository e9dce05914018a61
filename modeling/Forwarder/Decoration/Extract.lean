/-
**Extraction.** From a source file to the decorator declaration in it.

The first class or interface of the file must stand in a package and implement `Decorator` with a
class or interface type as its argument, and an import must give that type its qualified name. The
first of these conditions that fails is the reason for the rejection.

* `Rejection` — the ways in which a file is no decorator declaration, with reasons and hints.
* `Decoration.read` — the declaration in a source text.
-/

import Forwarder.Attempt
import Forwarder.Decoration.Basic
import Forwarder.Source.Parse

namespace Forwarder

open Source

/-- Why a file is no decorator declaration. -/
inductive Rejection
  | noTopLevelClass
  | noPackage
  | notDecorator (className : String)
  | noTypeArguments
  | unresolvedType (simpleName : String)
deriving DecidableEq, Repr

namespace Rejection

/-- The reason as the user reads it. -/
def reason : Rejection → String
  | noTopLevelClass => "Could not find any top-level class."
  | noPackage => "no package declaration specified"
  | notDecorator className => "The class " ++ className ++ " did not extend Decorator."
  | noTypeArguments => "There were no type arguments for the Decorator"
  | unresolvedType simpleName =>
    "Could not determine import for the class to decorate (" ++ simpleName ++
      "). Note that the import has to be fully qualified to be resolved."

/-- What the user may do about it. -/
def hints : Rejection → List String
  | noTopLevelClass => ["Declare the decorator as a top-level class in its own file"]
  | noPackage =>
    ["Add a package declaration, generated classes are placed in decorator.<package>"]
  | notDecorator _ =>
    ["Implement Decorator<T> where T is the type to wrap",
      "Example: abstract class MyMap<K, V> implements Decorator<Map<K, V>> \x7b \x7d"]
  | noTypeArguments =>
    ["Give Decorator the class or interface to wrap, e.g. Decorator<Map<K, V>>"]
  | unresolvedType simpleName =>
    ["Add a single-type import for " ++ simpleName ++ ", on-demand imports are not searched"]

/-- The rejection as a failure. -/
def failure (r : Rejection) : Failure :=
  let base := (Failure.rejected r.reason).withHints r.hints
  match r with
  | unresolvedType simpleName => base.withContext "type" (.text simpleName)
  | _ => base

end Rejection

namespace Decoration

/-- The first implemented type with the simple name `Decorator`. -/
def capability? (t : TypeSpec) : Option TypeRef :=
  t.header.implemented.find? (·.simpleName == "Decorator")

/-- The first type argument, if it is a plain class or interface type. -/
def target? (capability : TypeRef) : Option TypeRef :=
  match capability.typeArguments with
  | [] => none
  | type :: _ => if type.isNamed then some type else none

/-- The first imported name that ends in a point and the simple name. -/
def importOf? (imports : List String) (simpleName : String) : Option String :=
  imports.find? (Text.endsIn · ("." ++ simpleName))

/-- A step that has to find something. -/
def required {α : Type} (found : Option α) (rejection : Rejection) : Attempt α :=
  (Attempt.ofOption found).failOnEmpty (some rejection.failure)

/-- The declaration in a file. -/
def extract (file : String) (u : CompilationUnit) : Attempt Decoration :=
  (required u.topLevelClass? .noTopLevelClass).bind fun decl =>
  (required u.packageName .noPackage).bind fun packageName =>
  (required (capability? decl.spec) (.notDecorator decl.spec.header.name)).bind fun capability =>
  (required (target? capability) .noTypeArguments).bind fun target =>
  (required (importOf? u.importNames target.simpleName) (.unresolvedType target.simpleName)).bind
    fun decorated =>
  .present
    { className := decl.spec.header.name
      packageName
      decorated
      typeParams := decl.spec.header.typeParams.map (·.render)
      typeArgs := target.typeArguments.map (·.render)
      sourceFile := file }

/-- The declaration in a source text. -/
def read (file text : String) : Attempt Decoration :=
  match parseFile file text with
  | .error failure => .failed failure
  | .ok u => extract file u

end Decoration

end Forwarder
