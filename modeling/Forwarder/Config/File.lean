/-
**Configuration files.** Which file holds the settings of a project, and what it says.

* `configEntries` — the settings of the project, from a named file or from the one in the working
  directory.
-/

import Forwarder.Config.Dotenv
import Forwarder.Config.Json
import Forwarder.Config.Toml.Document
import Forwarder.Descriptor
import Forwarder.Disk.Basic
import Forwarder.Text.Order
import Forwarder.Yaml.Sound

namespace Forwarder

open Yaml

/-- Settings under their names, in lower case. -/
abbrev Entries :=
  List (String × Node)

/-- The formats of files, by the endings of their names. -/
def knownEndings : List String :=
  ["json", "toml", "yaml", "yml", "properties", "props", "prop", "hcl", "tfvars", "dotenv", "env",
    "ini"]

/-! ### Trees of settings -/

/-- The settings of pairs. Missing values are left out, and the last value of a name counts. -/
def entriesOfPairs (pairs : List Pair) : Entries :=
  pairs.foldl (fun entries (key, value) =>
    match key.name? with
    | some name =>
      if key.isNull || value.isNull then entries
      else (Text.lower name, value.target) :: entries
    | none => entries) []

/-- The settings of a tree. -/
def entriesOf (node : Node) : Except Problem Entries :=
  match node.target with
  | .mapping pairs => (effectivePairs pairs).map entriesOfPairs
  | .scalar .null _ => .ok []
  | _ => .error (.wrongKind "mapping")

/-- The settings of a YAML text: those of its first document. -/
def yamlEntries (text : String) : Except Failure Entries :=
  let docs := documents text
  let read : Except Problem Entries := match docs.nodes, docs.problem with
    | [], some problem => .error problem
    | [], none => .ok []
    | node :: _, _ => do
      sound text node
      entriesOf node
  match read with
  | .ok entries => .ok entries
  | .error problem => .error (.plain ("While parsing config: " ++ problem.message))

/-- The settings of a tree without merges. -/
def plainEntries? : Node → Option Entries
  | .mapping pairs => some (entriesOfPairs pairs)
  | .scalar .null _ => some []
  | _ => none

/-- The settings of a JSON text. -/
def jsonEntries (text : String) : Except Failure Entries :=
  match (Json.readJson text).bind plainEntries? with
  | some entries => .ok entries
  | none => .error (.plain "While parsing config: invalid character in text")

/-- The settings of a TOML text. -/
def tomlEntries (text : String) : Except Failure Entries :=
  match (Toml.readToml text).bind plainEntries? with
  | some entries => .ok entries
  | none => .error (.plain "While parsing config: toml: invalid text")

/-- The settings of a list of variables. -/
def dotenvEntries (environment : List (String × String)) (text : String) :
    Except Failure Entries :=
  match Dotenv.readDotenv environment text with
  | some values => .ok (values.map fun (name, value) => (Text.lower name, .ofText value))
  | none => .error (.plain "While parsing config: invalid line")

/-! ### Files -/

/-- The settings of a text in a format. -/
def entriesIn (environment : List (String × String)) (format text : String) :
    Except Failure Entries :=
  if format = "yaml" ∨ format = "yml" then yamlEntries text
  else if format = "json" then jsonEntries text
  else if format = "toml" then tomlEntries text
  else if format = "env" ∨ format = "dotenv" then dotenvEntries environment text
  else .error (.plain ("decoder not found for this format: " ++ format))

/-- The settings of the file at a path, in a known format. -/
def entriesAt (environment : List (String × String)) (d : Disk) (path format : String) :
    Except Failure Entries :=
  if knownEndings.contains format then
    match d.readFile path with
    | .error fault => .error (.system fault)
    | .ok text => entriesIn environment format text
  else .error (.plain ("Unsupported Config Type " ++ Text.quoted format))

/-- The names of the project's own file, in the order in which they are tried. -/
def ownNames : List String :=
  knownEndings.map ("decorator." ++ ·) ++ ["decorator"]

/-- The settings of a project: those of the named file, of the hidden file of the working
directory, or of the first file there with one of the project's own names, which is always read as
YAML. -/
def configEntries (environment : List (String × String)) (d : Disk) (file : String) :
    Except Failure Entries :=
  let hidden := ".decorator.yaml"
  if !file.isEmpty then
    entriesAt environment d file (String.ofList ((Path.extension file).toList.drop 1))
  else if d.isFile hidden then entriesAt environment d hidden "yaml"
  else
    match ownNames.find? d.isFile with
    | some name => entriesAt environment d name "yaml"
    | none => .ok []

end Forwarder
