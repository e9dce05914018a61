/-
**Generated files.** The declarations of a generated file and its text. The layout is fixed, so a
file has one text. Qualified names are imported in the order in which they were added; names of the file's own
package and of `java.lang` need no import.

* `Imports.add` — adds a name and says whether it was needed.
* `ClassDef`, `MethodDef`, … — the declarations.
* `CompilationUnit.render` — the text of a file.
-/

import Forwarder.Emit.Expr
import Forwarder.TypeName

namespace Forwarder.Emit

/-- The imports of a file in a package. -/
structure Imports where
  own : String
  names : List String
deriving DecidableEq, Repr

namespace Imports

/-- No imports yet. -/
def none (own : String) : Imports :=
  ⟨own, []⟩

/-- The name has a qualifier, is not imported yet, and comes from elsewhere. -/
def needs (i : Imports) (name : String) : Bool :=
  TypeName.isDotted name && !i.names.contains name &&
    TypeName.packageOf name != "java.lang" && TypeName.packageOf name != i.own

/-- Adds a name where it is needed. -/
def add (i : Imports) (name : String) : Bool × Imports :=
  if i.needs name then (true, { i with names := i.names ++ [name] }) else (false, i)

/-- Adds names in order, and tells for each whether it was needed. -/
def addAll (i : Imports) : List String → List Bool × Imports
  | [] => ([], i)
  | name :: names =>
    let (added, i) := i.add name
    let (rest, i) := i.addAll names
    (added :: rest, i)

end Imports

/-- A field without initializer. -/
structure FieldDef where
  modifiers : List String
  type : String
  name : String
deriving Repr

/-- A parameter. -/
structure Param where
  type : String
  name : String
  variadic : Bool
deriving DecidableEq, Repr

/-- A constructor. -/
structure ConstructorDef where
  modifiers : List String
  name : String
  params : List Param
  body : List Statement
deriving Repr

/-- A method with a body. -/
structure MethodDef where
  modifiers : List String
  typeParams : List String
  returns : String
  name : String
  params : List Param
  throws : List String
  body : List Statement
deriving Repr

/-- A class. -/
structure ClassDef where
  modifiers : List String
  name : String
  typeParams : List String
  superclass : String
  interfaces : List String
  fields : List FieldDef
  constructors : List ConstructorDef
  methods : List MethodDef
deriving Repr

/-- A file: the comment lines at its top, its package, the names it imports and its classes. -/
structure CompilationUnit where
  header : List String
  packageName : String
  imports : List String
  classes : List ClassDef
deriving Repr

/-! ### Texts of the parts -/

/-- Modifiers, each followed by a space. -/
def modifierText (modifiers : List String) : String :=
  String.join (modifiers.map (· ++ " "))

/-- Type parameters between angle brackets, or nothing. -/
def typeParamText (params : List String) : String :=
  if params.isEmpty then "" else "<" ++ Text.join ", " params ++ ">"

/-- One parameter. -/
def Param.render (p : Param) : String :=
  p.type ++ (if p.variadic then "... " else " ") ++ p.name

/-- Parameters, with a comma and a space between them. -/
def paramText (params : List Param) : String :=
  Text.join ", " (params.map (·.render))

/-- A clause behind a keyword, or nothing. -/
def clauseText (keyword : String) (names : List String) : String :=
  if names.isEmpty then "" else " " ++ keyword ++ " " ++ Text.join ", " names

/-- Lines one level further in. -/
def indented (lines : List String) : List String :=
  lines.map fun line => if line.isEmpty then line else "    " ++ line

/-- The lines of a body. -/
def bodyLines (body : List Statement) : List String :=
  indented (body.map (·.render))

/-! ### Lines of the declarations -/

/-- The line of a field. -/
def FieldDef.lines (f : FieldDef) : List String :=
  [modifierText f.modifiers ++ f.type ++ " " ++ f.name ++ ";"]

/-- The lines of a constructor. -/
def ConstructorDef.lines (c : ConstructorDef) : List String :=
  [modifierText c.modifiers ++ c.name ++ "(" ++ paramText c.params ++ ") \x7b"] ++
    bodyLines c.body ++ ["\x7d"]

/-- The head of a method. -/
def MethodDef.head (m : MethodDef) : String :=
  modifierText m.modifiers ++
    (if m.typeParams.isEmpty then "" else typeParamText m.typeParams ++ " ") ++
    m.returns ++ " " ++ m.name ++ "(" ++ paramText m.params ++ ")" ++
    clauseText "throws" m.throws ++ " \x7b"

/-- The lines of a method. -/
def MethodDef.lines (m : MethodDef) : List String :=
  [m.head] ++ bodyLines m.body ++ ["\x7d"]

/-- The head of a class. -/
def ClassDef.head (c : ClassDef) : String :=
  modifierText c.modifiers ++ "class " ++ c.name ++ typeParamText c.typeParams ++
    (if c.superclass.isEmpty then "" else " extends " ++ c.superclass) ++
    clauseText "implements" c.interfaces ++ " \x7b"

/-- The lines of a class: an empty line in front of every member. -/
def ClassDef.lines (c : ClassDef) : List String :=
  let members := c.fields.map (·.lines) ++ c.constructors.map (·.lines) ++ c.methods.map (·.lines)
  [c.head] ++ members.flatMap (fun lines => "" :: indented lines) ++ ["\x7d"]

/-- Groups of lines with an empty line between two of them. -/
def apart : List (List String) → List String
  | [] => []
  | [lines] => lines
  | lines :: others => lines ++ "" :: apart others

/-- Lines followed by an empty one, or nothing. -/
def paragraph (lines : List String) : List String :=
  if lines.isEmpty then [] else lines ++ [""]

namespace CompilationUnit

/-- The lines of a file. -/
def lines (u : CompilationUnit) : List String :=
  paragraph (u.header.map ("// " ++ ·)) ++
    paragraph (if u.packageName.isEmpty then [] else ["package " ++ u.packageName ++ ";"]) ++
    paragraph (u.imports.map fun name => "import " ++ name ++ ";") ++
    apart (u.classes.map (·.lines))

/-- The text of a file; every line is ended. -/
def render (u : CompilationUnit) : String :=
  String.join (u.lines.map (· ++ "\n"))

end CompilationUnit

end Forwarder.Emit
