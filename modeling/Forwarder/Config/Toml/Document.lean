/-
**TOML texts.** Settings written as TOML, read into the same trees as YAML documents.

A line is a key with its value, or the head of a table that the following keys belong to.

* `value` — a value.
* `readToml` — the tree of a text.
-/

import Forwarder.Config.Toml.Scalar
import Forwarder.Config.Toml.Table

namespace Forwarder.Toml

open Yaml

/-! ### Values -/

mutual

/-- A value. -/
def value : Nat → List Char → Read Node
  | 0, _ => none
  | n + 1, cs =>
    match cs with
    | '"' :: _ | '\'' :: _ => (quotedText cs).map fun (text, rest) => (.ofText text, rest)
    | '[' :: rest => (items n rest).map fun (nodes, rest) => (.sequence nodes, rest)
    | '\x7b' :: rest =>
      match skipBlanks rest with
      | '\x7d' :: rest => some (.mapping [], rest)
      | rest => (pairs n [] rest).map fun (parts, rest) => (.mapping (Part.pairs parts), rest)
    | cs => word cs

/-- Values up to a closing bracket; a comma may follow the last one. -/
def items : Nat → List Char → Read (List Node)
  | 0, _ => none
  | n + 1, cs =>
    match skipLines cs.length cs with
    | none => none
    | some (']' :: rest) => some ([], rest)
    | some cs =>
      match value n cs with
      | none => none
      | some (node, rest) =>
        match skipLines rest.length rest with
        | some (',' :: rest) => (items n rest).map fun (nodes, rest) => (node :: nodes, rest)
        | some (']' :: rest) => some ([node], rest)
        | _ => none

/-- Keys with values up to a closing brace, on one line. -/
def pairs : Nat → Parts → List Char → Read Parts
  | 0, _, _ => none
  | n + 1, parts, cs =>
    match key n cs with
    | some (path, '=' :: rest) =>
      match value n (skipBlanks rest) with
      | none => none
      | some (node, rest) =>
        match parts.withPair node path, skipBlanks rest with
        | some parts, ',' :: rest => pairs n parts rest
        | some parts, '\x7d' :: rest => some (parts, rest)
        | _, _ => none
    | _ => none

end

/-! ### Lines -/

/-- What has been read, and the table that keys belong to. -/
structure Reading where
  parts : Parts
  table : List String

namespace Reading

/-- The reading behind the head of a table, which changes the parts. The tables that dotted keys
have made below the head before are closed. -/
def head (r : Reading) (change : List String → Parts → Option Parts) (path : List String) :
    Option Reading := do
  let parts ← r.parts.within (some ∘ Part.settled) r.table
  return ⟨← change path parts, path⟩

/-- The reading behind a key with its value. -/
def pair (r : Reading) (path : List String) (node : Node) : Option Reading := do
  return { r with parts := ← r.parts.within (Parts.withPair node path) r.table }

/-- The reading behind one line that is not empty. -/
def line (r : Reading) (cs : List Char) : Read Reading :=
  let closed (next : Option Reading) (rest : List Char) : Read Reading :=
    match next, endOfLine rest with
    | some next, some rest => some (next, rest)
    | _, _ => none
  match cs with
  | '[' :: '[' :: rest =>
    match key cs.length rest with
    | some (path, ']' :: ']' :: rest) => closed (r.head Parts.withEntry path) rest
    | _ => none
  | '[' :: rest =>
    match key cs.length rest with
    | some (path, ']' :: rest) => closed (r.head Parts.withTable path) rest
    | _ => none
  | cs =>
    match key cs.length cs with
    | some (path, '=' :: rest) =>
      match value (2 * cs.length) (skipBlanks rest) with
      | some (node, rest) => closed (r.pair path node) rest
      | none => none
    | _ => none

/-- The reading behind all lines. -/
def all (r : Reading) : Nat → List Char → Option Reading
  | 0, _ => none
  | n + 1, cs =>
    match skipLines cs.length cs with
    | none => none
    | some [] => some r
    | some cs =>
      match r.line cs with
      | some (next, rest) => next.all n rest
      | none => none

end Reading

/-- The tree of a text. -/
def readToml (text : String) : Option Node :=
  let cs := text.toList
  ((Reading.mk [] []).all (cs.length + 1) cs).map fun r => .mapping (Part.pairs r.parts)

end Forwarder.Toml
