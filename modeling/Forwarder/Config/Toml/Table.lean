/-
**Tables of TOML.** What has been said about each name, and what may still be said.

A table comes into being by a head of its own, by the head of a table inside it, or by a dotted key.
A head may be given once, and only to a table that no dotted keys have made before that head's own
lines; dotted keys do not reach into a table that has a head.

* `Part` — a value, a table, or several tables under one name.
* `withTable`, `withEntry`, `withPair` — a head of a table, a head of one table more, a key with its
  value.
* `settled` — the tables that dotted keys have made are closed.
-/

import Forwarder.Yaml.Node

namespace Forwarder.Toml

open Yaml

/-- What stands under a name. -/
inductive Part
  | value (node : Node)
  /-- A table. It is headed when it has a head or is closed, and dotted when dotted keys have made
  it since the last head. -/
  | table (isHeaded isDotted : Bool) (parts : List (String × Part))
  /-- Several tables: those that are complete, and the parts of the last one. -/
  | entries (complete : List Node) (parts : List (String × Part))

/-- The parts of a table under their names. -/
abbrev Parts :=
  List (String × Part)

namespace Part

mutual

/-- The tree of a part. -/
def tree : Part → Node
  | .value node => node
  | .table _ _ parts => .mapping (pairs parts)
  | .entries complete parts => .sequence (complete ++ [.mapping (pairs parts)])

/-- The pairs of parts. -/
def pairs : List (String × Part) → List (Node × Node)
  | [] => []
  | (name, part) :: parts => (.ofText name, part.tree) :: pairs parts

end

mutual

/-- The part with all tables in it closed that dotted keys have made. -/
def settle : Part → Part
  | .value node => .value node
  | .table isHeaded isDotted parts => .table (isHeaded || isDotted) false (settled parts)
  | .entries complete parts => .entries complete (settled parts)

/-- The parts with all tables in them closed that dotted keys have made. -/
def settled : List (String × Part) → List (String × Part)
  | [] => []
  | (name, part) :: parts => (name, part.settle) :: settled parts

end

end Part

namespace Parts

/-- The parts with another part under a name; a change may be refused. -/
def change (f : Option Part → Option Part) (name : String) : Parts → Option Parts
  | [] => (f none).map fun part => [(name, part)]
  | (other, part) :: parts =>
    if other = name then (f (some part)).map fun part => (name, part) :: parts
    else (change f name parts).map ((other, part) :: ·)

/-- The parts with a change to the table under a path that heads go along: missing tables are made,
and of several tables the last one counts. -/
def within (f : Parts → Option Parts) : List String → Parts → Option Parts
  | [], parts => f parts
  | name :: path, parts =>
    parts.change (fun
      | none => (within f path []).map (.table false false)
      | some (.table isHeaded isDotted inner) =>
        (within f path inner).map (.table isHeaded isDotted)
      | some (.entries complete inner) => (within f path inner).map (.entries complete)
      | some (.value _) => none) name

/-- The parts with a change to what stands under the last name of a path that heads go along. -/
def atEnd (f : Option Part → Option Part) (path : List String) (parts : Parts) : Option Parts :=
  match path.getLast? with
  | some name => parts.within (change f name) path.dropLast
  | none => none

/-- The parts with a head of a table. -/
def withTable : List String → Parts → Option Parts :=
  atEnd fun
    | none => some (.table true false [])
    | some (.table false isDotted inner) => some (.table true isDotted inner)
    | some _ => none

/-- The parts with a head of one table more under a name. -/
def withEntry : List String → Parts → Option Parts :=
  atEnd fun
    | none => some (.entries [] [])
    | some (.entries complete inner) =>
      some (.entries (complete ++ [.mapping (Part.pairs inner)]) [])
    | some _ => none

/-- The parts with a value under a dotted key. -/
def withPair (value : Node) : List String → Parts → Option Parts
  | [], _ => none
  | [name], parts =>
    parts.change (fun
      | none => some (.value value)
      | some _ => none) name
  | name :: path, parts =>
    parts.change (fun
      | none => (withPair value path []).map (.table false true)
      | some (.table false isDotted inner) =>
        (withPair value path inner).map (.table false isDotted)
      | some _ => none) name

end Parts

end Forwarder.Toml
