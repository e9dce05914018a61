/-
**Reports.** What the user reads about failed files, a failed run and a finished one.

* `Report.failure` — one file that produced nothing.
* `Report.error` — a run that failed, with context, hints and, on request, all causes.
* `Report.success` — a run that finished.
-/

import Forwarder.Batch.Summary
import Forwarder.Text.Blank
import Forwarder.Text.Order

namespace Forwarder.Report

/-- Lines, each of them ended. -/
def ended (lines : List String) : String :=
  String.join (lines.map (· ++ "\n"))

/-- A warning. -/
def warning (message : String) : String :=
  ended ["! " ++ message]

/-- One file that produced nothing; the hints are for those who want to know more. -/
def failure (verbose : Bool) (path : String) (failure : Failure) : String :=
  let hints := if verbose then (failure.coded?.map (·.hints)).getD [] else []
  ended (("✗ " ++ path ++ ": " ++ failure.text) :: hints.map ("    hint: " ++ ·))

/-! ### A failed run -/

/-- A part of a name with a capital first letter. Only ASCII letters have one here; a first
character beyond ASCII is lost, one replacement mark for each of its bytes. -/
def capitalized (part : String) : String :=
  match part.toList with
  | [] => ""
  | c :: rest =>
    if c.toNat < 0x80 then String.ofList (c.toUpper :: rest)
    else String.ofList (List.replicate c.utf8Size '\ufffd' ++ rest)

/-- The name of a context value as a heading: `config_type` is headed `Config Type`. -/
def contextTitle (key : String) : String :=
  Text.join " " ((Text.split '_' key).map capitalized)

/-- The context values that matter most stand first, the others follow in order. -/
def contextOrder (context : Context) : Context :=
  let important := ["type", "class", "path"]
  important.filterMap (fun key => context.find? (·.1 == key)) ++
    Text.sortedByKey (context.filter fun entry => !important.contains entry.1)

/-- The lines of the context. -/
def contextLines (context : Context) : List String :=
  if context.isEmpty then []
  else "Context:" :: (contextOrder context).map
    (fun (key, value) => "   " ++ contextTitle key ++ ": " ++ value.render) ++ [""]

/-- The lines of a hint: its first line is numbered, and empty ones are dropped after it. -/
def hintLines (number : Nat) (hint : String) : List String :=
  match Text.lines hint with
  | [] => []
  | first :: more =>
    ("   " ++ toString number ++ ". " ++ first) ::
      (more.filter fun line => Text.trim line != "").map ("      " ++ ·)

/-- The lines of all hints. -/
def hintsLines (hints : List String) : List String :=
  if hints.isEmpty then []
  else "Suggestions:" :: (hints.zipIdx.flatMap fun (hint, i) => hintLines (i + 1) hint) ++ [""]

/-- What there is to say about a class of errors in general. -/
def helpLines : Code → List String
  | .rejected =>
    ["Decorator Declaration Requirements:", "  - A top-level class in a named package",
      "  - implements Decorator<T> with T a class or interface type",
      "  - T imported with a single-type import", ""]
  | .unresolved =>
    ["Type Loading:", "  - --source-path lists directories and source jars searched for T",
      "  - --descriptor-dir lists directories of YAML type descriptors",
      "  - 'decorator describe <type>' prints the descriptor of a loadable type", ""]
  | .invariant =>
    ["This is a bug in the generator. Please report it with the declaration that triggered it.",
      ""]
  | _ => []

/-- The causes of a failure, numbered. -/
def chainLines (failure : Failure) : List String :=
  ["", "Error Chain:"] ++ numberedLines failure.chain

/-- The lines about a coded error. -/
def codedLines (verbose : Bool) (e : CodedError) : List String :=
  ["Type: " ++ e.code.title, Text.times (e.code.title.length + 6) "-", ""] ++
    ["Message: " ++ e.message, ""] ++
    (match e.cause with
    | some cause => if verbose then ["Underlying cause: " ++ cause.text, ""] else []
    | none => []) ++
    (if e.loc.isEmpty then [] else ["Location: " ++ e.loc.render, ""]) ++
    contextLines e.context ++ hintsLines e.hints ++ helpLines e.code ++
    ["For more help:", "  - Run with --verbose for more detailed output",
      "  - Run with --log-level debug for the structured trace"] ++
    (if verbose then
      chainLines (.coded e.code e.message e.loc e.cause e.context e.hints)
    else [])

/-- A run that failed. -/
def error (verbose : Bool) (failure : Failure) : String :=
  ended (["", "ERROR: Decorator Generation Failed", "==================================", ""] ++
    (match failure.coded? with
    | some e => codedLines verbose e
    | none => ["Message: " ++ failure.text, ""]) ++ [""])

/-! ### A finished run -/

/-- A run that finished. -/
def success (s : Summary) : String :=
  ended (["", "Decorator Generation Completed", "==============================", "",
      "Run " ++ s.runId,
      "Scanned " ++ toString s.scanned ++ " files, " ++ toString s.candidates ++
        " declared decorators"] ++
    (if 0 < s.generated then ["Generated " ++ toString s.generated ++ " decorators"] else []) ++
    (if 0 < s.failed then ["Failed " ++ toString s.failed ++ " files"] else []) ++
    (if s.files.isEmpty then [] else ["", "Generated files:"] ++ s.files.map ("  - " ++ ·)))

end Forwarder.Report
