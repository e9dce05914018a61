/-
**Surfaces.** The description of a type that is to be decorated: its name, everything it is, and its
methods with the inherited ones.

* `Surface.isA` — the type is one of the named type; decides which return values are wrapped again.
* `Surface.overridable` — the methods that a forwarding class overrides.
-/

import Forwarder.Method

namespace Forwarder

/-- A type: its name, the qualified names of all its supertypes, and its methods, the most derived
first. -/
structure Surface where
  name : String
  typeParams : List String
  supertypes : List String
  methods : List Method
deriving DecidableEq, Repr

namespace Surface

/-- The name of the type after its last point. -/
def simpleName (s : Surface) : String :=
  TypeName.simpleName s.name

/-- An erased type text names the type with this qualified name, in full or, if the text has no
qualifier, by its simple name. -/
def names (qualified erased : String) : Bool :=
  qualified == erased || (!TypeName.isDotted erased && TypeName.simpleName qualified == erased)

/-- A value of this type is one of the named type. Type arguments are ignored. -/
def isA (s : Surface) (type : String) : Bool :=
  let erased := TypeName.eraseType type
  erased != "" && (s.name :: s.supertypes).any (names · erased)

/-- The methods a subclass may override. -/
def overridable (s : Surface) : List Method :=
  s.methods.filter (·.isOverridable)

end Surface

end Forwarder
