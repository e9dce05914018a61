/-
**Loading the configuration.** Settings come from several sides; the nearest to the user counts.

* `Layers` — arguments and flags, environment, project file.
* `Layers.config` — the configuration they make up.
* `loadConfig` — the same with the project file read from a disk.
-/

import Forwarder.Config.Basic
import Forwarder.Config.File
import Forwarder.Config.Setting

namespace Forwarder

open Yaml

/-- The settings of all sides, the nearest to the user first. -/
structure Layers where
  /-- What the command line says. -/
  given : Entries
  environment : List (String × String)
  file : Entries

namespace Layers

/-- The name of the environment variable for a setting. -/
def variableName (key : String) : String :=
  "DECORATOR_" ++ key.toUpper

/-- The names of all settings. -/
def keys : List String :=
  ["source_dirs", "output_dir", "source_path", "descriptor_dirs", "workers", "all_or_nothing",
    "dry_run", "verbose", "quiet", "log_level", "log_format"]

/-- The value of the environment variable for a setting; an empty one counts as not set. -/
def fromEnvironment? (layers : Layers) (key : String) : Option Node :=
  match layers.environment.lookup (variableName key) with
  | some value => if value.isEmpty then none else some (.ofText value)
  | none => none

/-- The value of a setting. -/
def value? (layers : Layers) (key : String) : Option Node :=
  (layers.given.lookup key).or ((layers.fromEnvironment? key).or (layers.file.lookup key))

/-- The value of a setting as what is wanted, or the standard one where nothing is said. -/
def setting {α : Type} (layers : Layers) (read : Node → Option α) (standard : α) (key : String) :
    Option α :=
  match layers.value? key with
  | some node => read node
  | none => some standard

/-- The configuration, if every setting can be taken for what is wanted. -/
def config? (layers : Layers) (base : Config) : Option Config := do
  let sourceDirs ← layers.setting Setting.texts? base.sourceDirs "source_dirs"
  let outputDir ← layers.setting Setting.text? base.outputDir "output_dir"
  let sourcePath ← layers.setting Setting.texts? base.sourcePath "source_path"
  let descriptorDirs ← layers.setting Setting.texts? base.descriptorDirs "descriptor_dirs"
  let workers ← layers.setting Setting.number? base.workers "workers"
  let allOrNothing ← layers.setting Setting.flag? base.allOrNothing "all_or_nothing"
  let dryRun ← layers.setting Setting.flag? base.dryRun "dry_run"
  let verbose ← layers.setting Setting.flag? base.verbose "verbose"
  let quiet ← layers.setting Setting.flag? base.quiet "quiet"
  let logLevel ← layers.setting Setting.text? base.logLevel "log_level"
  let logFormat ← layers.setting Setting.text? base.logFormat "log_format"
  return ⟨sourceDirs, outputDir, sourcePath, descriptorDirs, workers, allOrNothing, dryRun, verbose,
    quiet, logLevel, logFormat⟩

end Layers

/-- What surrounds a command: the environment and the number of processors. -/
structure Surroundings where
  environment : List (String × String)
  processors : Int

/-- The configuration from the command line, the environment and the project file. -/
def loadConfig (around : Surroundings) (d : Disk) (given : Entries) (file : String) :
    Except Failure Config :=
  match configEntries around.environment d file with
  | .error failure =>
    .error ((Failure.configurationStep "decorator" "read" (some failure)).withContext "file"
      (.text file))
  | .ok entries =>
    match (Layers.mk given around.environment entries).config? (.standard around.processors) with
    | some config => .ok config
    | none =>
      .error (.configurationStep "decorator" "decode" (some (.plain "decoding failed")))

end Forwarder
