/-
**Validation.** Checks on settings. A check accepts a value or says what is wrong with it.

* `Check` — a check; `Check.all` runs checks in order and stops at the first complaint.
* `Check.typeName` — the names of types and packages.
-/

import Forwarder.Failure
import Forwarder.TypeName

namespace Forwarder

/-- A check of a value: the complaint, if there is one. -/
abbrev Check (α : Type) :=
  α → Option Failure

namespace Check

variable {α : Type}

/-- The check that asks for a property. -/
def custom (field message : String) (property : α → Bool) : Check α :=
  fun value => if property value then none else some (.invalid field message)

/-- The first complaint of a list of checks. -/
def all (checks : List (Check α)) : Check α :=
  fun value => checks.findSome? (· value)

/-- The check of the values that satisfy a condition. -/
def when (condition : α → Bool) (check : Check α) : Check α :=
  fun value => if condition value then check value else none

/-- The text is not empty. -/
def notEmpty (field : String) : Check String :=
  custom field "cannot be empty" (· != "")

/-- The list is not empty. -/
def listNotEmpty (field : String) : Check (List α) :=
  custom field "cannot be empty" (!·.isEmpty)

/-- The number lies between two others. -/
def inRange (field : String) (low high : Int) : Check Int :=
  custom field ("must be between " ++ toString low ++ " and " ++ toString high) fun n =>
    low ≤ n && n ≤ high

/-- The text is one of those allowed. -/
def oneOf (field : String) (allowed : List String) : Check String :=
  custom field ("must be one of: [" ++ Text.join " " allowed ++ "]") (allowed.contains ·)

/-- Every value of a list passes a check; the complaint names the place of the first that does
not. -/
def each (field : String) (check : Check α) : Check (List α) :=
  fun values => values.zipIdx.findSome? fun (value, i) =>
    (check value).map fun failure =>
      .invalid (field ++ "[" ++ toString i ++ "]") failure.text

/-- The levels of the log. -/
def logLevel (field : String) : Check String :=
  oneOf field ["debug", "info", "warn", "error"]

/-- The formats of the log. -/
def logFormat (field : String) : Check String :=
  oneOf field ["console", "json"]

/-! ### Names of types -/

/-- The words that name nothing. -/
def reservedWords : List String :=
  ["abstract", "assert", "boolean", "break", "byte", "case", "catch", "char", "class", "const",
    "continue", "default", "do", "double", "else", "enum", "extends", "final", "finally", "float",
    "for", "goto", "if", "implements", "import", "instanceof", "int", "interface", "long", "native",
    "new", "package", "private", "protected", "public", "return", "short", "static", "strictfp",
    "super", "switch", "synchronized", "this", "throw", "throws", "transient", "try", "void",
    "volatile", "while", "true", "false", "null", "_"]

/-- An identifier that is no reserved word. -/
def isIdentifier (word : String) : Bool :=
  match word.toList with
  | [] => false
  | c :: rest =>
    !reservedWords.contains word && TypeName.isNameStart c && rest.all TypeName.isNamePart

/-- A name of one or more identifiers with points between them. -/
def isTypeName (name : String) : Bool :=
  (Text.split '.' name).all isIdentifier

/-- The text is the name of a type or package. -/
def typeName (field : String) : Check String :=
  custom field "must be a dot-separated list of Java identifiers" isTypeName

end Check

end Forwarder
