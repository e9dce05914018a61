/-
**Methods.** The description of a method of a type: what a forwarding class has to know about it.

* `Visibility` — the access levels, read from their keywords.
* `Method` — the description; `Method.signature` is the key by which one method overrides another.
-/

import Forwarder.Text.Order
import Forwarder.TypeName

namespace Forwarder

/-- The access level of a method. -/
inductive Visibility
  | packagePrivate
  | publicly
  | protectedly
  | privately
deriving DecidableEq, Repr

namespace Visibility

/-- The keyword, or the name of the level that has none. -/
def name : Visibility → String
  | packagePrivate => "package-private"
  | publicly => "public"
  | protectedly => "protected"
  | privately => "private"

/-- The number of a level. -/
def number : Visibility → Nat
  | packagePrivate => 0
  | publicly => 1
  | protectedly => 2
  | privately => 3

/-- The level a keyword stands for, in any case and with blanks around it. -/
def ofName (s : String) : Visibility :=
  let word := Text.lower (Text.trim s)
  if word = "public" then publicly
  else if word = "protected" then protectedly
  else if word = "private" then privately
  else packagePrivate

end Visibility

/-- A parameter of a method. -/
structure Parameter where
  type : String
  name : String
  variadic : Bool
deriving DecidableEq, Repr

/-- The erased type of a parameter; a variadic one is an array. -/
def Parameter.erased (p : Parameter) : String :=
  TypeName.eraseType p.type ++ (if p.variadic then "[]" else "")

/-- A method of a type. -/
structure Method where
  name : String
  params : List Parameter
  returns : String
  visibility : Visibility
  isStatic : Bool
  isFinal : Bool
  isAbstract : Bool
  typeParams : List String
  throws : List String
  declaredIn : String
deriving DecidableEq, Repr

namespace Method

/-- A subclass may override the method. -/
def isOverridable (m : Method) : Bool :=
  !m.isStatic && !m.isFinal && (m.visibility == .publicly || m.visibility == .protectedly)

/-- The method returns nothing. -/
def isVoid (m : Method) : Bool :=
  m.returns == "void"

/-- The key of a method: its name and its erased parameter types. -/
def signature (m : Method) : String :=
  m.name ++ "(" ++ Text.join "," (m.params.map (·.erased)) ++ ")"

/-- The methods whose keys are not among those already seen, each key once. -/
def unseen (seen : List String) : List Method → List Method
  | [] => []
  | m :: methods =>
    if seen.contains m.signature then unseen seen methods
    else m :: unseen (m.signature :: seen) methods

end Method

end Forwarder
