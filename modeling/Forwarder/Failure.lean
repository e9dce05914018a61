/-
**Failures.** Everything that can go wrong, with its wording in one place.

A failure is a *coded* error with a place, a cause, context and hints; or one of the things that
appear as causes: a fault of the file system, a rejected setting, a broken assumption, a text.

* `Code` — the classes of coded errors.
* `Failure` — the tree of a failure and its causes.
* `Failure.text`, `Failure.chain` — its message, and the messages of all its causes in order.
* `Failure.coded?` — the outermost coded error, which decides the class of the whole failure.
-/

import Forwarder.Text.Pieces

namespace Forwarder

/-! ### Codes and places -/

/-- The class of an error. -/
inductive Code
  | unreadable
  | malformed
  | rejected
  | unresolved
  | invariant
  | generation
  | fileSystem
  | configuration
  /-- Any other number. -/
  | unknown (number : Int)
deriving DecidableEq, Repr

namespace Code

/-- The number of a class. -/
def number : Code → Int
  | unreadable => 1
  | malformed => 2
  | rejected => 3
  | unresolved => 4
  | invariant => 5
  | generation => 6
  | fileSystem => 7
  | configuration => 8
  | unknown n => n

/-- The class with a number. -/
def ofNumber (n : Int) : Code :=
  match n with
  | 1 => unreadable
  | 2 => malformed
  | 3 => rejected
  | 4 => unresolved
  | 5 => invariant
  | 6 => generation
  | 7 => fileSystem
  | 8 => configuration
  | n => unknown n

/-- The class as answers name it. -/
def name : Code → String
  | unreadable => "IOError"
  | malformed => "SyntaxError"
  | rejected => "ValidationError"
  | unresolved => "TypeResolutionError"
  | invariant => "InvariantError"
  | generation => "GenerationError"
  | fileSystem => "FileSystemError"
  | configuration => "ConfigurationError"
  | unknown _ => "UnknownError"

/-- The class as reports head it. -/
def title : Code → String
  | unreadable => "I/O Error"
  | malformed => "Java Syntax Error"
  | rejected => "Declaration Error"
  | unresolved => "Type Resolution Error"
  | invariant => "Internal Error"
  | generation => "Code Generation Error"
  | fileSystem => "File System Error"
  | configuration => "Configuration Error"
  | unknown _ => "Unknown Error"

end Code

/-- A place in a file. A missing part is empty or zero. -/
structure Location where
  file : String
  line : Int
  column : Int
deriving DecidableEq, Repr

namespace Location

/-- No place at all. -/
def nowhere : Location :=
  ⟨"", 0, 0⟩

/-- Without a file there is no place. -/
def isEmpty (loc : Location) : Bool :=
  loc.file.isEmpty

/-- The place with as many parts as are known. -/
def render (loc : Location) : String :=
  if loc.file.isEmpty then "unknown location"
  else if loc.line = 0 then loc.file
  else if loc.column = 0 then loc.file ++ ":" ++ toString loc.line
  else loc.file ++ ":" ++ toString loc.line ++ ":" ++ toString loc.column

end Location

/-- A value of an error's context. -/
inductive Datum
  | text (value : String)
  | number (value : Int)
deriving DecidableEq, Repr

/-- The value as reports print it. -/
def Datum.render : Datum → String
  | .text value => value
  | .number value => toString value

/-- Named values, each name once. -/
abbrev Context :=
  List (String × Datum)

/-- The context with a value under a name. -/
def Context.put (context : Context) (key : String) (value : Datum) : Context :=
  context.filter (·.1 != key) ++ [(key, value)]

/-! ### Faults of the file system -/

/-- Why the system refused an operation. -/
inductive Refusal
  | missing
  | notDirectory
  | isDirectory
  | exists
  | notEmpty
  | invalidArgument
  | nameTooLong
deriving DecidableEq, Repr

/-- The system's words for a refusal. -/
def Refusal.message : Refusal → String
  | .missing => "no such file or directory"
  | .notDirectory => "not a directory"
  | .isDirectory => "is a directory"
  | .exists => "file exists"
  | .notEmpty => "directory not empty"
  | .invalidArgument => "invalid argument"
  | .nameTooLong => "file name too long"

/-- A refused operation on one path, or on two for a renaming. -/
structure SystemFault where
  operation : String
  paths : List String
  refusal : Refusal
deriving DecidableEq, Repr

/-- The fault as it is reported. -/
def SystemFault.message (fault : SystemFault) : String :=
  Text.join " " (fault.operation :: fault.paths) ++ ": " ++ fault.refusal.message

/-! ### Failures -/

/-- A failure with all its causes. -/
inductive Failure
  /-- A bare text. -/
  | plain (text : String)
  /-- The system refused an operation. -/
  | system (fault : SystemFault)
  /-- A value was rejected; the field that holds it may be unnamed. -/
  | invalid (field message : String)
  /-- An assumption of the program itself does not hold. -/
  | assertion (text : String)
  /-- A failure that remembers where it was first seen. -/
  | traced (cause : Failure)
  /-- A failure with words in front of it, punctuation included. -/
  | within (words : String) (cause : Failure)
  /-- Several coded errors together. -/
  | several (errors : List Failure)
  /-- An error of a class, with what is known about it. -/
  | coded (code : Code) (message : String) (loc : Location) (cause : Option Failure)
      (context : Context) (hints : List String)
deriving Repr

/-- A coded error by its parts. -/
structure CodedError where
  code : Code
  message : String
  loc : Location
  cause : Option Failure
  context : Context
  hints : List String

/-- The message behind its place, if it has one. -/
def located (loc : Location) (message : String) : String :=
  if loc.isEmpty then message else loc.render ++ ": " ++ message

/-- Texts as a numbered list, one to a line. -/
def numberedLines (texts : List String) : List String :=
  texts.zipIdx.map fun (text, i) => "  " ++ toString (i + 1) ++ ". " ++ text

/-- The message of several errors together. -/
def severalText : List String → String
  | [] => "no errors"
  | [text] => text
  | texts =>
    "multiple errors (" ++ toString texts.length ++ " total):\n" ++
      Text.join "\n" (numberedLines texts)

mutual

/-- The message of a failure. -/
def Failure.text : Failure → String
  | .plain text => text
  | .system fault => fault.message
  | .invalid field message =>
    if field.isEmpty then "validation error: " ++ message
    else "validation error for field '" ++ field ++ "': " ++ message
  | .assertion text => text
  | .traced cause => cause.text
  | .within words cause => words ++ cause.text
  | .several errors => severalText (texts errors)
  | .coded _ message loc _ _ _ => located loc message

/-- The messages of failures. -/
def texts : List Failure → List String
  | [] => []
  | failure :: failures => failure.text :: texts failures

end

mutual

/-- The outermost coded error. Of several errors the first one counts. -/
def Failure.coded? : Failure → Option CodedError
  | .coded code message loc cause context hints =>
    some ⟨code, message, loc, cause, context, hints⟩
  | .traced cause => cause.coded?
  | .within _ cause => cause.coded?
  | .several errors => firstCoded? errors
  | _ => none

/-- The outermost coded error of the first failure that has one. -/
def firstCoded? : List Failure → Option CodedError
  | [] => none
  | failure :: failures => failure.coded? <|> firstCoded? failures

end

namespace Failure

/-- The failure is itself a coded error. -/
def isCoded : Failure → Bool
  | .coded .. => true
  | _ => false

/-- The class of a failure. -/
def code (failure : Failure) : Code :=
  match failure.coded? with
  | some error => error.code
  | none => .unknown 0

/-- The failure belongs to the class. -/
def hasCode (failure : Failure) (code : Code) : Bool :=
  failure.code == code

/-- A broken assumption is somewhere among the causes. Several errors together end the search. -/
def hasAssertion : Failure → Bool
  | .assertion _ => true
  | .traced cause => cause.hasAssertion
  | .within _ cause => cause.hasAssertion
  | .coded _ _ _ (some cause) _ _ => cause.hasAssertion
  | _ => false

/-- The failure comes from a broken assumption of the program itself. -/
def isInvariant (failure : Failure) : Bool :=
  failure.hasCode .invariant || failure.hasAssertion

/-- The messages of the failure and of all its causes. An assertion is told three times and a trace
repeats the message of what it traces. -/
def chain (failure : Failure) : List String :=
  match failure with
  | .assertion text => [text, text, text]
  | .system fault => [fault.message, fault.refusal.message]
  | .traced cause => failure.text :: cause.chain
  | .within _ cause => failure.text :: cause.chain
  | .coded _ _ _ (some cause) _ _ => failure.text :: cause.chain
  | _ => [failure.text]

/-! ### Attaching what is known -/

/-- A coded error of a class without anything else. -/
def ofCode (code : Code) (message : String) : Failure :=
  .coded code message Location.nowhere none [] []

/-- A coded error with a cause. -/
def caused (code : Code) (message : String) (cause : Option Failure) : Failure :=
  .coded code message Location.nowhere cause [] []

/-- A coded error with a place. -/
def withLocation (failure : Failure) (loc : Location) : Failure :=
  match failure with
  | .coded code message _ cause context hints => .coded code message loc cause context hints
  | other => other

/-- A coded error with one more value of context. -/
def withContext (failure : Failure) (key : String) (value : Datum) : Failure :=
  match failure with
  | .coded code message loc cause context hints =>
    .coded code message loc cause (context.put key value) hints
  | other => other

/-- A coded error with more hints. -/
def withHints (failure : Failure) (more : List String) : Failure :=
  match failure with
  | .coded code message loc cause context hints =>
    .coded code message loc cause context (hints ++ more)
  | other => other

/-! ### The failures of the tool -/

/-- The message of a cause that may be missing. -/
def causeText : Option Failure → String
  | none => "<nil>"
  | some cause => cause.text

/-- A source file that cannot be read. -/
def unreadable (path : String) (cause : Option Failure) : Failure :=
  (caused .unreadable ("could not read file '" ++ path ++ "': " ++ causeText cause) cause)
    |>.withContext "path" (.text path)

/-- A source text that is not well formed. -/
def malformed (file : String) (line column : Int) (detail : String) (cause : Option Failure) :
    Failure :=
  (caused .malformed ("failed to parse " ++ file ++ ": " ++ detail) cause)
    |>.withContext "file" (.text file)
    |>.withContext "line" (.number line)
    |>.withContext "column" (.number column)

/-- A declaration that does not have the required structure. -/
def rejected (reason : String) : Failure :=
  ofCode .rejected reason

/-- A type that no source or descriptor declares. -/
def typeNotFound (name : String) (cause : Option Failure) : Failure :=
  (caused .unresolved ("type not found: " ++ name) cause)
    |>.withContext "type" (.text name)
    |>.withHints
      ["Add the directory or sources jar declaring the type to the source path",
        "Provide a YAML type descriptor for the type in a descriptor directory"]

/-- A broken assumption of the program itself. -/
def brokenInvariant (message : String) : Failure :=
  caused .invariant message (some (.assertion message))

/-- An operation on an item that did not succeed. -/
def operation (verb item : String) (cause : Option Failure) : Failure :=
  caused (.unknown 0) ("failed to " ++ verb ++ " " ++ item) cause

/-- A class that could not be generated. -/
def generation (item : String) (cause : Option Failure) : Failure :=
  (caused .generation ("failed to generate " ++ item) cause)
    |>.withContext "target" (.text item)

/-- A file operation that did not succeed. -/
def fileSystem (verb path : String) (cause : Option Failure) : Failure :=
  (caused .fileSystem
      ("failed to " ++ verb ++ " file '" ++ path ++ "': " ++ causeText cause)
      (cause.map .traced))
    |>.withContext "operation" (.text verb)
    |>.withContext "path" (.text path)

/-- An operation on the configuration that did not succeed. -/
def configurationStep (kind verb : String) (cause : Option Failure) : Failure :=
  (caused .configuration ("failed to " ++ verb ++ " configuration '" ++ kind ++ "'") cause)
    |>.withContext "config_type" (.text kind)
    |>.withContext "operation" (.text verb)

/-- Words about an item in front of a failure. -/
def processing (item : String) (cause : Failure) : Failure :=
  .within ("failed to process " ++ item ++ ": ") cause

/-- A configuration that does not make sense. -/
def configuration (kind message : String) : Failure :=
  (ofCode .configuration ("configuration error in '" ++ kind ++ "': " ++ message))
    |>.withContext "config_type" (.text kind)

end Failure

end Forwarder
