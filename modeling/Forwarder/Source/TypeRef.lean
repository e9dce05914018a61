/-
**Type references.** Uses of types in source text, with the annotations written on them, and the
canonical text of a reference.

* `Balanced` — tokens that are kept but not interpreted, with parentheses and braces in pairs.
* `TypeRef` — a wildcard, or a possibly qualified and parameterized name, with array dimensions.
* `TypeRef.render` — the reference in canonical form, `java.util.Map<K, List<? extends V>>[]`.
* `TypeRef.qualifiedName`, `simpleName`, `typeArguments` — what the parts of the tool ask of it.
-/

import Forwarder.Text.Pieces

namespace Forwarder.Source

/-! ### Uninterpreted tokens -/

/-- A token, or a group of tokens between parentheses or braces. -/
inductive Balanced
  | token (text : String)
  | parens (inner : List Balanced)
  | braces (inner : List Balanced)
deriving Repr

/-- A dotted name, by its segments. -/
structure DottedName where
  head : String
  tail : List String
deriving DecidableEq, Repr

/-- The name as it is written. -/
def DottedName.render (name : DottedName) : String :=
  Text.join "." (name.head :: name.tail)

/-- A use of an annotation. Its arguments are not interpreted. -/
structure AnnotationUse where
  name : DottedName
  args : Option (List Balanced)
deriving Repr

/-! ### References -/

/-- The direction of a wildcard's bound. -/
inductive Bound
  | upper
  | lower
deriving DecidableEq, Repr

/-- The keyword of a bound. -/
def Bound.keyword : Bound → String
  | .upper => "extends"
  | .lower => "super"

/-- The two directions. -/
def Bound.all : List Bound :=
  [.upper, .lower]

mutual

/-- A use of a type. -/
inductive TypeRef
  /-- An unbounded wildcard. -/
  | wildcard (annotations : List AnnotationUse) (dims : Nat)
  /-- A wildcard with the keyword of a bound and no type after it. This is what an attempt to read a bound
  leaves behind when it is given up: the keyword is read once more, as what comes after the wildcard. -/
  | unfinished (annotations : List AnnotationUse) (bound : Bound) (dims : Nat)
  /-- A wildcard with a bound. -/
  | bounded (annotations : List AnnotationUse) (bound : Bound) (type : TypeRef) (dims : Nat)
  /-- A name of one or more segments. -/
  | named (annotations : List AnnotationUse) (first : TypeSegment) (others : List TypeSegment)
      (dims : Nat)

/-- One segment of a type's name. -/
inductive TypeSegment
  /-- A name alone. -/
  | plain (name : String)
  /-- A name with type arguments; an empty list is the diamond. -/
  | applied (name : String) (args : List TypeRef)

end

deriving instance Repr for TypeRef, TypeSegment

/-- The name of a segment. -/
def TypeSegment.name : TypeSegment → String
  | .plain name => name
  | .applied name _ => name

/-- The type arguments of a segment. -/
def TypeSegment.args : TypeSegment → List TypeRef
  | .plain _ => []
  | .applied _ args => args

/-- The primitive types and `void`. -/
def primitiveNames : List String :=
  ["boolean", "byte", "char", "short", "int", "long", "float", "double", "void"]

/-- The name of a primitive type, or `void`. -/
def isPrimitive (name : String) : Bool :=
  primitiveNames.contains name

/-- Array dimensions as they are written. -/
def brackets (dims : Nat) : String :=
  Text.times dims "[]"

mutual

/-- The reference in canonical form, without its annotations. -/
def TypeRef.render : TypeRef → String
  | .wildcard _ dims => "?" ++ brackets dims
  | .unfinished _ _ dims => "?" ++ brackets dims
  | .bounded _ bound type dims =>
    "? " ++ bound.keyword ++ " " ++ type.render ++ brackets dims
  | .named _ first others dims => first.render ++ renderMore others ++ brackets dims

/-- A segment with its type arguments. -/
def TypeSegment.render : TypeSegment → String
  | .plain name => name
  | .applied name args => name ++ "<" ++ renderArgs args ++ ">"

/-- The segments after the first, each behind a point. -/
def renderMore : List TypeSegment → String
  | [] => ""
  | segment :: others => "." ++ segment.render ++ renderMore others

/-- Type arguments, with a comma and a space between them. -/
def renderArgs : List TypeRef → String
  | [] => ""
  | [type] => type.render
  | type :: others => type.render ++ ", " ++ renderArgs others

end

namespace TypeRef

/-- The annotations written in front. -/
def annotations : TypeRef → List AnnotationUse
  | .wildcard annotations _ => annotations
  | .unfinished annotations _ _ => annotations
  | .bounded annotations _ _ _ => annotations
  | .named annotations _ _ _ => annotations

/-- How many array dimensions follow. -/
def dims : TypeRef → Nat
  | .wildcard _ dims => dims
  | .unfinished _ _ dims => dims
  | .bounded _ _ _ dims => dims
  | .named _ _ _ dims => dims

/-- The segments of the name; a wildcard has none. -/
def segments : TypeRef → List TypeSegment
  | .named _ first others _ => first :: others
  | _ => []

/-- A wildcard, bounded or not. -/
def isWildcard : TypeRef → Bool
  | .named .. => false
  | _ => true

/-- A reference with array dimensions. -/
def isArray (r : TypeRef) : Bool :=
  0 < r.dims

/-- A primitive type, not an array of one. -/
def isPrimitiveType (r : TypeRef) : Bool :=
  match r.segments with
  | [segment] => !r.isArray && isPrimitive segment.name
  | _ => false

/-- A plain reference type: no wildcard, no array, and its name does not begin with that of a
primitive type. -/
def isNamed (r : TypeRef) : Bool :=
  match r.segments with
  | [] => false
  | first :: _ => !r.isArray && !isPrimitive first.name

/-- The names of the segments, joined by points. -/
def qualifiedName (r : TypeRef) : String :=
  Text.join "." (r.segments.map (·.name))

/-- The name of the last segment. -/
def simpleName (r : TypeRef) : String :=
  match r.segments.getLast? with
  | none => ""
  | some segment => segment.name

/-- The type arguments of the last segment. -/
def typeArguments (r : TypeRef) : List TypeRef :=
  match r.segments.getLast? with
  | none => []
  | some segment => segment.args

end TypeRef

/-! ### Type parameters -/

/-- A declared type variable with its bounds. -/
structure TypeParam where
  annotations : List AnnotationUse
  name : String
  bounds : List TypeRef
deriving Repr

/-- The type parameter in canonical form, `T extends Comparable<T>`. -/
def TypeParam.render (p : TypeParam) : String :=
  if p.bounds.isEmpty then p.name
  else p.name ++ " extends " ++ Text.join " & " (p.bounds.map (·.render))

end Forwarder.Source
