/-
**Configuration.** The settings of a run, and what makes them unusable.

* `Config` — the settings; `Config.standard` are those that hold unless something else is said.
* `Config.complaint?` — the first thing that is wrong with a configuration.
-/

import Forwarder.Batch.Scan
import Forwarder.Validation

namespace Forwarder

/-- The settings of a run. -/
structure Config where
  /-- The patterns that are scanned for declarations. -/
  sourceDirs : List String
  outputDir : String
  /-- The directories and archives that decorated types are loaded from. -/
  sourcePath : List String
  /-- The directories of descriptors, looked into before the source path. -/
  descriptorDirs : List String
  workers : Int
  /-- Generate nothing if any declaration is rejected. -/
  allOrNothing : Bool
  /-- Print what would be generated. -/
  dryRun : Bool
  verbose : Bool
  quiet : Bool
  logLevel : String
  logFormat : String
deriving DecidableEq, Repr

namespace Config

/-- The largest number of workers. -/
def maxWorkers : Int :=
  256

/-- The number of workers on a machine with so many processors. -/
def workersFor (processors : Int) : Int :=
  min (max processors 1) maxWorkers

/-- The settings that hold unless something else is said. -/
def standard (processors : Int) : Config where
  sourceDirs := ["./..."]
  outputDir := "generated"
  sourcePath := []
  descriptorDirs := []
  workers := workersFor processors
  allOrNothing := false
  dryRun := false
  verbose := false
  quiet := false
  logLevel := "warn"
  logFormat := "console"

/-- The output directory is none of the scanned ones, which a later cleaning would sweep. -/
def isOutputApart (c : Config) (output : String) : Bool :=
  c.sourceDirs.all fun text => Path.clean (Pattern.ofText text).base != Path.clean output

/-- The checks of a configuration, in order. -/
def checks : List (Check Config) :=
  [fun c => Check.all [.listNotEmpty "source_dirs", .each "source_dirs" (.notEmpty "source_dirs")]
      c.sourceDirs,
    fun c => Check.all [.notEmpty "output_dir", .when (fun _ => !c.dryRun)
      (.custom "output_dir" "must not be a source directory" c.isOutputApart)] c.outputDir,
    fun c => Check.each "source_path" (.notEmpty "source_path") c.sourcePath,
    fun c => Check.each "descriptor_dirs" (.notEmpty "descriptor_dirs") c.descriptorDirs,
    fun c => Check.inRange "workers" 1 maxWorkers c.workers,
    fun c => Check.logLevel "log_level" c.logLevel,
    fun c => Check.logFormat "log_format" c.logFormat,
    Check.custom "quiet" "cannot be combined with verbose" fun c => !(c.quiet && c.verbose)]

/-- The first complaint about a configuration. -/
def complaint? (c : Config) : Option Failure :=
  (Check.all checks c).map fun failure =>
    (Failure.caused .configuration failure.text (some failure)).withHints
      ["Check decorator.yaml, DECORATOR_* environment variables and flags"]

end Config

end Forwarder
