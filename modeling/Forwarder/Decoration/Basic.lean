/-
**Decorations.** What a decorator declaration says: the class that is declared, its package, and
the type it decorates.
-/

import Forwarder.TypeName

namespace Forwarder

/-- A decorator declaration. -/
structure Decoration where
  /-- The simple name of the declared class. -/
  className : String
  /-- The package of the declared class. -/
  packageName : String
  /-- The qualified name of the decorated type. -/
  decorated : String
  /-- The type parameters of the declared class, with their bounds. -/
  typeParams : List String
  /-- The type arguments written behind the decorated type. -/
  typeArgs : List String
  /-- The file that holds the declaration. -/
  sourceFile : String
deriving DecidableEq, Repr

namespace Decoration

/-- The simple name of the decorated type. -/
def decoratedSimpleName (d : Decoration) : String :=
  TypeName.simpleName d.decorated

/-- The qualified name of the declared class. -/
def qualifiedName (d : Decoration) : String :=
  d.packageName ++ "." ++ d.className

/-- The name of the class that implements the declaration. -/
def implName (d : Decoration) : String :=
  d.className ++ "Impl"

/-- The declared class has type parameters. -/
def isGeneric (d : Decoration) : Bool :=
  !d.typeParams.isEmpty

/-- Class and package are named and the decorated type has a qualified name. -/
def isValid (d : Decoration) : Bool :=
  d.className != "" && d.packageName != "" && TypeName.isDotted d.decorated

end Decoration

end Forwarder
