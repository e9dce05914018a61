/-
**Descriptors.** Surfaces written down as YAML documents.

* `Surface.describe` — a surface as a tree; `Surface.descriptor` — as a document.
* `Surface.ofNode` — the surface that a tree describes.
* `Descriptor.decode` — the surfaces of all documents of a text.
-/

import Forwarder.Surface
import Forwarder.Text.Quoted
import Forwarder.Yaml.Merge
import Forwarder.Yaml.Render

namespace Forwarder

open Yaml

/-- Why a text is no list of descriptors. -/
inductive Descriptor.Fault
  | malformed (problem : Problem)
  /-- The name of the document at a position, counted from one, is not qualified. -/
  | unqualified (position : Nat) (name : String)
deriving DecidableEq, Repr

/-- The fault as it is reported. -/
def Descriptor.Fault.message : Descriptor.Fault → String
  | .malformed problem => problem.message
  | .unqualified position name =>
    "descriptor " ++ toString position ++ ": name " ++ Text.quoted name ++
      " is not a qualified type name"

/-! ### Reading fields -/

namespace Descriptor

/-- The pairs under the names of their keys. A missing key is passed over. -/
def namedPairs : List Pair → Except Problem (List (String × Node))
  | [] => .ok []
  | (key, value) :: pairs =>
    match key.target, namedPairs pairs with
    | _, .error problem => .error problem
    | .scalar .null _, .ok more => .ok more
    | .scalar .impossible _, .ok _ => .error .contradictoryTag
    | .scalar _ name, .ok more => .ok ((name, value) :: more)
    | _, .ok _ => .error (.wrongKind "string")

/-- The fields of a mapping; a missing node has none. -/
def fields (node : Node) : Except Problem (List (String × Node)) :=
  match node.target with
  | .mapping pairs => effectivePairs pairs >>= namedPairs
  | .scalar .null _ => .ok []
  | _ => .error (.wrongKind "mapping")

/-- The node of a field; without the field it is missing. -/
def field (fs : List (String × Node)) (name : String) : Node :=
  (fs.lookup name).getD .absent

/-- A text; a missing one is empty. -/
def text (node : Node) : Except Problem String :=
  match node.target with
  | .scalar .null _ => .ok ""
  | .scalar .impossible _ => .error .contradictoryTag
  | .scalar _ s => .ok s
  | _ => .error (.wrongKind "string")

/-- Words for truth values besides `true` and `false`. -/
def truthWords : List (String × Bool) :=
  [("y", true), ("Y", true), ("yes", true), ("on", true),
    ("n", false), ("N", false), ("no", false), ("off", false)]

/-- A truth value; a missing one is false. -/
def truth (node : Node) : Except Problem Bool :=
  match node.target with
  | .scalar .null _ => .ok false
  | .scalar (.truth b) _ => .ok b
  | .scalar .text s =>
    match truthWords.lookup s with
    | some b => .ok b
    | none => .error (.wrongKind "bool")
  | _ => .error (.wrongKind "bool")

/-- The values of several nodes; missing nodes are left out. -/
def each {α : Type} (read : Node → Except Problem α) (nodes : List Node) :
    Except Problem (List α) :=
  (nodes.filter (!·.isNull)).mapM read

/-- A list of values; a missing one is empty. -/
def list {α : Type} (read : Node → Except Problem α) (node : Node) : Except Problem (List α) :=
  match node.target with
  | .sequence nodes => each read nodes
  | .scalar .null _ => .ok []
  | _ => .error (.wrongKind "list")

/-- A parameter of a method. -/
def parameter (node : Node) : Except Problem Parameter := do
  let fs ← fields node
  let type ← text (field fs "type")
  let name ← text (field fs "name")
  let variadic ← truth (field fs "variadic")
  return ⟨type, name, variadic⟩

/-- A method. One that does not tell what it returns returns nothing. -/
def method (node : Node) : Except Problem Method := do
  let fs ← fields node
  let name ← text (field fs "name")
  let typeParams ← list text (field fs "type_parameters")
  let params ← list parameter (field fs "parameters")
  let returns ← text (field fs "returns")
  let visibility ← text (field fs "visibility")
  let isStatic ← truth (field fs "static")
  let isFinal ← truth (field fs "final")
  let isAbstract ← truth (field fs "abstract")
  let throws ← list text (field fs "throws")
  let declaredIn ← text (field fs "declaring_type")
  return {
    name, params, isStatic, isFinal, isAbstract, typeParams, throws, declaredIn
    returns := if returns.isEmpty then "void" else returns
    visibility := .ofName visibility }

end Descriptor

/-- The surface that a tree describes. -/
def Surface.ofNode (node : Node) : Except Problem Surface := do
  let fs ← Descriptor.fields node
  let name ← Descriptor.text (Descriptor.field fs "name")
  let typeParams ← Descriptor.list Descriptor.text (Descriptor.field fs "type_parameters")
  let supertypes ← Descriptor.list Descriptor.text (Descriptor.field fs "supertypes")
  let methods ← Descriptor.list Descriptor.method (Descriptor.field fs "methods")
  return ⟨name, typeParams, supertypes, methods⟩

namespace Descriptor

/-- The surfaces of trees, the first of which stands at a position. Each needs a qualified name. -/
def surfaces (position : Nat) : List Node → Except Fault (List Surface)
  | [] => .ok []
  | node :: nodes =>
    match Surface.ofNode node with
    | .error problem => .error (.malformed problem)
    | .ok surface =>
      if TypeName.isDotted surface.name then
        match surfaces (position + 1) nodes with
        | .error fault => .error fault
        | .ok more => .ok (surface :: more)
      else .error (.unqualified position surface.name)

/-- The surfaces of all documents of a text. -/
def decode (text : String) : Except Fault (List Surface) :=
  let docs := documents text
  match surfaces 1 docs.nodes, docs.problem with
  | .error fault, _ => .error fault
  | .ok _, some problem => .error (.malformed problem)
  | .ok found, none => .ok found

/-! ### Writing -/

/-- A pair of a mapping. -/
def pair (name : String) (value : Node) : Node × Node :=
  (.ofText name, value)

/-- A list of texts, left out when it is empty. -/
def textsIfAny (name : String) (texts : List String) : List (Node × Node) :=
  if texts.isEmpty then [] else [pair name (.sequence (texts.map .ofText))]

/-- A flag, left out when it is not set. -/
def flagIfSet (name : String) (flag : Bool) : List (Node × Node) :=
  if flag then [pair name (.ofTruth true)] else []

/-- A parameter as a tree. -/
def ofParameter (p : Parameter) : Node :=
  .mapping ([pair "type" (.ofText p.type), pair "name" (.ofText p.name)] ++
    flagIfSet "variadic" p.variadic)

/-- A method as a tree. -/
def ofMethod (m : Method) : Node :=
  .mapping ([pair "name" (.ofText m.name)] ++ textsIfAny "type_parameters" m.typeParams ++
    (if m.params.isEmpty then []
      else [pair "parameters" (.sequence (m.params.map ofParameter))]) ++
    [pair "returns" (.ofText m.returns), pair "visibility" (.ofText m.visibility.name)] ++
    flagIfSet "static" m.isStatic ++ flagIfSet "final" m.isFinal ++
    flagIfSet "abstract" m.isAbstract ++ textsIfAny "throws" m.throws ++
    (if m.declaredIn.isEmpty then []
      else [pair "declaring_type" (.ofText m.declaredIn)]))

end Descriptor

/-- A surface as a tree. -/
def Surface.describe (s : Surface) : Node :=
  .mapping ([Descriptor.pair "name" (.ofText s.name)] ++
    Descriptor.textsIfAny "type_parameters" s.typeParams ++
    Descriptor.textsIfAny "supertypes" s.supertypes ++
    [Descriptor.pair "methods" (.sequence (s.methods.map Descriptor.ofMethod))])

/-- A surface as a document. -/
def Surface.descriptor (s : Surface) : String :=
  s.describe.render

end Forwarder
