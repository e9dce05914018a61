/-
**The tool.** What a command line does to a disk, and what it prints.

* `execute` — the whole tool: arguments in, printed texts, failure and disk out.
* `pathsOf` — the paths that it may have to look at.
-/

import Forwarder.Batch.Clean
import Forwarder.Batch.Run
import Forwarder.Command.Action
import Forwarder.Command.Arguments
import Forwarder.Config.Load
import Forwarder.Descriptor

namespace Forwarder

/-- What came of a command. A failure may already have been told in full. -/
structure CommandResult where
  printed : Printed
  failure : Option Failure
  told : Bool
  disk : Disk

namespace CommandResult

/-- A command that failed before it printed or changed anything. -/
def refused (d : Disk) (failure : Failure) : CommandResult :=
  ⟨.nothing, some failure, false, d⟩

end CommandResult

/-- Where a command is carried out: its surroundings, and the name of its run. -/
structure Session where
  around : Surroundings
  runId : String

/-- The configuration of a command, checked. Source directories on the command line replace those of
the configuration. -/
def checkedConfig (session : Session) (d : Disk) (given : Given) (sourceDirs : List String) :
    Except Failure Config :=
  let sources : Entries :=
    if sourceDirs.isEmpty then [] else [("source_dirs", .sequence (sourceDirs.map .ofText))]
  match loadConfig session.around d (sources ++ given.entries) (given.text .configFile) with
  | .error failure => .error failure
  | .ok config =>
    match config.complaint? with
    | some failure => .error failure
    | none => .ok config

/-- How a configuration wants to be watched. -/
def Config.watching (c : Config) : Watching :=
  .ofFlags c.quiet c.verbose

/-! ### The jobs -/

/-- What is said in a word about a run with failures. -/
def shortfall (s : Summary) : String :=
  toString s.failed ++ " of " ++ toString s.candidates ++ " decorators could not be generated"

/-- What is told about a run at its end, and its failure. -/
def verdictOf (verbose : Bool) (o : Outcome) : Printed × Option Failure :=
  match o.failure with
  | some failure => (.error (Report.error verbose failure), some failure)
  | none =>
    match o.summary.failure? with
    | some failure =>
      (.error (Report.warning (shortfall o.summary)),
        some (.within (shortfall o.summary ++ ": ") failure))
    | none => (.nothing, none)

/-- Generates the units of all declarations. -/
def generateCommand (session : Session) (config : Config) (d : Disk) : CommandResult :=
  let outcome := run config session.runId false d
  let (last, failure) := verdictOf config.verbose outcome
  ⟨Event.printedAll config.watching outcome.events ++ last, failure, failure.isSome, outcome.disk⟩

/-- Removes generated files. -/
def cleanCommand (config : Config) (dirs : List String) (d : Disk) : CommandResult :=
  let cleaning := d.clean (if dirs.isEmpty then [config.outputDir ++ "/..."] else dirs)
  let ending := match cleaning.failure with
    | some _ => []
    | none => [.success ("Removed " ++ toString cleaning.removed.length ++ " generated files")]
  let notices := .heading "Cleaning generated files" ::
    cleaning.removed.map (fun path => Notice.verbose ("removed " ++ path)) ++ ending
  ⟨config.watching.console.tellAll notices, cleaning.failure, false, cleaning.disk⟩

/-- The name of a type to describe. -/
def describedName : Check String :=
  Check.all [.typeName "type",
    .custom "type" "must be a qualified type name" TypeName.isDotted]

/-- Prints the descriptor of a type. -/
def describeCommand (config : Config) (name : String) (d : Disk) : CommandResult :=
  match ((TypeLoader.ofPaths config.descriptorDirs config.sourcePath).load d false name).1 with
  | .error failure => .refused d failure
  | .ok surface => ⟨.regular surface.descriptor, none, false, d⟩

/-- How the tool is used. -/
def usageText : String :=
  Report.ended (["Usage:", "  decorator [source-dirs...]", "  decorator generate [source-dirs...]",
    "  decorator clean [dirs...]", "  decorator describe <qualified-type>", "", "Flags:"] ++
    Flag.all.map fun flag => "  " ++ flag.title)

/-! ### The tool -/

/-- Does a job with the flags and arguments it is given. -/
def perform (session : Session) (d : Disk) (arguments : Arguments) : Action → CommandResult
  | .generate =>
    match checkedConfig session d arguments.given arguments.others with
    | .error failure => .refused d failure
    | .ok config => generateCommand session config d
  | .clean =>
    match checkedConfig session d arguments.given [] with
    | .error failure => .refused d failure
    | .ok config => cleanCommand config arguments.others d
  | .describe =>
    match arguments.others with
    | [name] =>
      match describedName name with
      | some failure =>
        .refused d (.caused .configuration failure.text (some failure))
      | none =>
        match checkedConfig session d arguments.given [] with
        | .error failure => .refused d failure
        | .ok config => describeCommand config name d
    | others =>
      .refused d (.plain ("accepts 1 arg(s), received " ++ toString others.length))

/-- The paths that a command line may have to look at, as far as the configuration on a disk tells.
-/
def pathsOf (session : Session) (d : Disk) (commandLine : List String) : List String :=
  let (_, rest) := Action.choose commandLine
  match Arguments.read rest with
  | .error _ => []
  | .ok arguments =>
    match checkedConfig session d arguments.given [] with
    | .error _ => [arguments.given.text .configFile]
    | .ok config =>
      ((arguments.others ++ config.sourceDirs).map fun text => (Pattern.ofText text).base) ++
        config.outputDir :: config.sourcePath ++ config.descriptorDirs

/-- What a command line does to a disk. -/
def execute (session : Session) (d : Disk) (commandLine : List String) : CommandResult :=
  let (action, rest) := Action.choose commandLine
  match Arguments.read rest with
  | .error fault => .refused d (.plain fault.message)
  | .ok arguments =>
    if arguments.given.isOn .help then ⟨.regular usageText, none, false, d⟩
    else perform session d arguments action

end Forwarder
