/-
**Runs.** From the files below the source directories to the generated units.

A run scans, extracts the declarations of all files and then generates their units one after the
other. A file that fails does not stop the others, unless the run is all or nothing: then a rejected
declaration stops it before the first unit.

* `generate` — the unit of one declaration.
* `generateAll` — the units of many, each with its own result.
* `run` — a whole run, with the disk that it leaves.
-/

import Forwarder.Batch.Event
import Forwarder.Batch.Extraction
import Forwarder.Batch.Output
import Forwarder.Batch.Scan
import Forwarder.Config.Basic
import Forwarder.Loading.TypeLoader

namespace Forwarder

/-- What generating works on: the loader with what it has learned, and the disk. -/
structure Workshop where
  loader : TypeLoader
  disk : Disk

/-- What became of one unit, and the workshop after it. -/
structure Made where
  path : Except Failure String
  printed : String
  shop : Workshop

/-- Loads the decorated type of a declaration, makes the unit and writes it. -/
def generate (out : Output) (shop : Workshop) (decoration : Decoration) : Made :=
  let (loaded, loader) := shop.loader.load shop.disk false decoration.decorated
  let shop := { shop with loader := loader }
  match loaded with
  | .error failure => ⟨.error failure, "", shop⟩
  | .ok surface =>
    match Forwarding.synthesize decoration (some surface) with
    | .error failure =>
      ⟨.error (.generation decoration.implName (some failure)), "", shop⟩
    | .ok unit =>
      let written := out.write shop.disk unit
      ⟨written.path, written.printed, { shop with disk := written.disk }⟩

/-- The result of a file whose declaration was accepted. -/
def resultOf (path : String) (decoration : Decoration) : Except Failure String → FileResult
  | .ok output => ⟨path, decoration.qualifiedName, decoration.decorated, output, none⟩
  | .error failure => ⟨path, decoration.qualifiedName, decoration.decorated, "", some failure⟩

/-- What is told about a result. -/
def Event.ofResult (r : FileResult) : Event :=
  match r.failure with
  | some failure => .failed r.path failure
  | none => .told (.phaseItem (r.className ++ " -> " ++ r.output))

/-- The units of a dry run, if there are any. -/
def Event.ofPreview (text : String) : List Event :=
  if text.isEmpty then [] else [.previewed text]

/-- Results of files, what was told about them, and the workshop after them. -/
structure Generation where
  results : List FileResult
  events : List Event
  shop : Workshop

/-- One result and its events in front of what follows. -/
def Generation.after (result : FileResult) (before : List Event) (rest : Generation) : Generation :=
  ⟨result :: rest.results, before ++ Event.ofResult result :: rest.events, rest.shop⟩

/-- The units of declarations, one after the other. A rejected declaration is a result of its own,
and a file without one has no result. -/
def generateAll (out : Output) (shop : Workshop) :
    List (String × Attempt Decoration) → Generation
  | [] => ⟨[], [], shop⟩
  | (_, .empty) :: rest => generateAll out shop rest
  | (path, .failed failure) :: rest =>
    (generateAll out shop rest).after ⟨path, "", "", "", some failure⟩ []
  | (path, .present decoration) :: rest =>
    let made := generate out shop decoration
    (generateAll out made.shop rest).after (resultOf path decoration made.path)
      (Event.ofPreview made.printed)

/-- The path of the first file whose declaration was rejected. -/
def firstRejected (declared : List (String × Attempt Decoration)) : String :=
  ((declared.find? (·.2.hasFailed)).map (·.1)).getD ""

/-! ### What is told -/

/-- At the start of a run. -/
def openingEvents (runId : String) : List Event :=
  [.told (.header "generating decorators"), .told (.verbose ("Run " ++ runId))]

/-- After the declarations have been extracted. -/
def extractionEvents (s : Summary) : List Event :=
  [.told (.phaseHeader "Extraction"),
    .told (.phaseItem (toString s.candidates ++ " of " ++ toString s.scanned ++
      " files declare decorators"))]

/-- At the end of a run. -/
def closingEvents (s : Summary) : List Event :=
  .told (.summary "Summary" [("Files scanned", s.scanned), ("Decorators declared", s.candidates),
    ("Decorators generated", s.generated), ("Failures", s.failed)]) ::
  if s.failed = 0 then [.told .complete] else []

/-! ### The run -/

/-- What came of a run: its summary, the failure that stopped it, if one did, what was told, and the
disk after it. -/
structure Outcome where
  summary : Summary
  failure : Option Failure
  events : List Event
  disk : Disk

/-- The run after the declarations of all files have been extracted. -/
def runExtracted (config : Config) (d : Disk) (summary : Summary) (extraction : Extraction) :
    Outcome :=
  let loader := TypeLoader.sharing extraction.reader config.descriptorDirs config.sourcePath
  let generation := generateAll ⟨config.outputDir, config.dryRun⟩ ⟨loader, d⟩ extraction.declared
  let finished := summary.withResults generation.results
  ⟨finished, none, .told (.phaseHeader "Generation") :: generation.events ++ closingEvents finished,
    generation.shop.disk⟩

/-- What stops a run that is all or nothing: the failure of all declarations together. The path that it
belongs to is looked for on its own. -/
def stopping? (config : Config) (declared : List (String × Attempt Decoration)) :
    Option (String × Failure) :=
  if config.allOrNothing then
    match Attempt.join (declared.map (·.2)) with
    | .failed failure => some (firstRejected declared, failure)
    | _ => none
  else none

/-- The run after the declarations have been looked at together. -/
def runDeclared (config : Config) (d : Disk) (summary : Summary) (extraction : Extraction) :
    Outcome :=
  match stopping? config extraction.declared with
  | some (path, failure) =>
    ⟨summary.withResults [⟨path, "", "", "", some failure⟩], some (.atPath path failure), [], d⟩
  | none => runExtracted config d summary extraction

/-- The run after its files have been found, from what was extracted from them. -/
def runScanned (config : Config) (runId : String) (d : Disk) (files : List String)
    (extraction : Extraction) : Outcome :=
  let candidates := (extraction.declared.filter fun entry => !entry.2.isEmpty).length
  let summary := { Summary.start runId with scanned := files.length, candidates }
  let outcome := runDeclared config d summary extraction
  { outcome with
    events := openingEvents runId ++ extractionEvents summary ++ outcome.events }

/-- The files of a run, or what comes of it when it ends before any of them is read. One that is
called off still scans. -/
def runScan (config : Config) (runId : String) (cancelled : Bool) (d : Disk) :
    Except Outcome (List String) :=
  match d.scan config.sourceDirs with
  | .error failure => .error ⟨.start runId, some failure, openingEvents runId, d⟩
  | .ok files =>
    let summary := { Summary.start runId with scanned := files.length }
    if cancelled then .error ⟨summary, some calledOff, openingEvents runId, d⟩ else .ok files

/-- A run that extracts its files one after the other. -/
def run (config : Config) (runId : String) (cancelled : Bool) (d : Disk) : Outcome :=
  match runScan config runId cancelled d with
  | .error stopped => stopped
  | .ok files => runScanned config runId d files (Reader.fresh.extractAll d files)

end Forwarder
