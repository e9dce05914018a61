/-
**Type names.** Types as texts: `java.util.Map<K, V>[]`. Everything the tool asks of such a text.

* `simpleName`, `packageOf` — the parts of a qualified name.
* `eraseType` — the text without type arguments.
* `mapIdentifiers` — rewrites every unqualified identifier of a text; `identifiers` lists them.
* `substitute` — replaces type variables by their arguments.
-/

import Forwarder.Text.Blank
import Forwarder.Text.Letter
import Forwarder.Text.Numeral
import Forwarder.Text.Pieces

namespace Forwarder.TypeName

/-! ### Qualified names -/

/-- The part of a qualified name after its last point. -/
def simpleName (name : String) : String :=
  String.ofList (Text.afterLast '.' name.toList)

/-- The part of a qualified name before its last point. -/
def packageOf (name : String) : String :=
  String.ofList (Text.beforeLast '.' name.toList)

/-- The name has a qualifier. -/
def isDotted (name : String) : Bool :=
  name.toList.contains '.'

/-! ### Erasure -/

/-- Erasure inside `depth` nested argument lists. A closing bracket too many is dropped. -/
def eraseFrom (depth : Nat) : List Char → List Char
  | [] => []
  | c :: rest =>
    if c = '<' then eraseFrom (depth + 1) rest
    else if c = '>' then eraseFrom (depth - 1) rest
    else if depth = 0 ∧ c ≠ ' ' then c :: eraseFrom depth rest
    else eraseFrom depth rest

/-- A type without type arguments and spaces: `Map<K, V>[]` becomes `Map[]`. -/
def eraseType (type : String) : String :=
  String.ofList (eraseFrom 0 type.toList)

/-! ### Identifiers -/

/-- The first character of an identifier. -/
def isNameStart (c : Char) : Bool :=
  Text.isLetter c || c == '_' || c == '$'

/-- A later character of an identifier. -/
def isNamePart (c : Char) : Bool :=
  isNameStart c || Text.isDecimal c

/-- A finished identifier, replaced unless a point stands before or after it. -/
def rewriteName (f : String → String) (before : Option Char) (name : List Char)
    (after : Option Char) : List Char :=
  if before = some '.' ∨ after = some '.' then name else (f (String.ofList name)).toList

/-- Rewrites the identifiers of a text. `name` is the identifier read so far, if any, and `before`
the character in front of it. -/
def rewriteFrom (f : String → String) (before : Option Char) (name : List Char) :
    List Char → List Char
  | [] => if name.isEmpty then [] else rewriteName f before name none
  | c :: rest =>
    if name.isEmpty then
      if isNameStart c then rewriteFrom f before [c] rest
      else c :: rewriteFrom f (some c) [] rest
    else if isNamePart c then rewriteFrom f before (name ++ [c]) rest
    else rewriteName f before name (some c) ++ c :: rewriteFrom f (some c) [] rest

/-- Rewrites every identifier of a text that is not part of a dotted name. -/
def mapIdentifiers (f : String → String) (type : String) : String :=
  String.ofList (rewriteFrom f none [] type.toList)

/-- A finished identifier, unless a point stands before or after it. -/
def listedName (before : Option Char) (name : List Char) (after : Option Char) : List String :=
  if before = some '.' ∨ after = some '.' then [] else [String.ofList name]

/-- The identifiers of a text that `rewriteFrom` rewrites. -/
def namesFrom (before : Option Char) (name : List Char) : List Char → List String
  | [] => if name.isEmpty then [] else listedName before name none
  | c :: rest =>
    if name.isEmpty then
      if isNameStart c then namesFrom before [c] rest else namesFrom (some c) [] rest
    else if isNamePart c then namesFrom before (name ++ [c]) rest
    else listedName before name (some c) ++ namesFrom (some c) [] rest

/-- The identifiers of a text that are not part of a dotted name. -/
def identifiers (type : String) : List String :=
  namesFrom none [] type.toList

/-! ### Type variables -/

/-- Texts for type variables; the first entry of a name counts. -/
abbrev Substitution :=
  List (String × String)

/-- The arguments for type parameters, in order; parameters without an argument stand for `Object`,
and no parameter is replaced by itself. A later entry goes first. -/
def Substitution.ofArguments : List String → List String → Substitution → Substitution
  | [], _, mapping => mapping
  | name :: names, args, mapping =>
    let arg := args.head?.getD "Object"
    ofArguments names args.tail (if arg = name then mapping else (name, arg) :: mapping)

/-- The text that stands for an identifier: its entry, unless it is protected. -/
def Substitution.apply (mapping : Substitution) (skip : List String) (name : String) : String :=
  if skip.contains name then name else (mapping.lookup name).getD name

/-- Replaces the type variables of a text. Names in `skip` stay, as do parts of dotted names. -/
def substitute (mapping : Substitution) (skip : List String) (type : String) : String :=
  mapIdentifiers (mapping.apply skip) type

/-- The names of declared type parameters: `T extends Comparable<T>` declares `T`. -/
def typeParamNames (declared : List String) : List String :=
  declared.filterMap fun param => (Text.fields param).head?

end Forwarder.TypeName
