/-
**Summaries.** What a run did, file by file and in numbers.

* `FileResult` — what became of one file.
* `Summary` — a whole run; `Summary.failure?` is the failure of a run with failed files.
-/

import Forwarder.Failure

namespace Forwarder

/-- What became of one file that holds a decorator declaration. -/
structure FileResult where
  path : String
  className : String
  decorated : String
  output : String
  failure : Option Failure
deriving Repr

/-- A failure behind the path of the file that it belongs to. -/
def Failure.atPath (path : String) (failure : Failure) : Failure :=
  (Failure.caused failure.code (path ++ ": " ++ failure.text) (some failure)).withContext "path"
    (.text path)

/-- The failure of a file, behind its path. -/
def FileResult.located? (r : FileResult) : Option Failure :=
  r.failure.map (.atPath r.path)

/-- A run in numbers and results. -/
structure Summary where
  runId : String
  scanned : Nat
  candidates : Nat
  generated : Nat
  failed : Nat
  results : List FileResult
  files : List String
deriving Repr

namespace Summary

/-- A run that has done nothing yet. -/
def start (runId : String) : Summary :=
  ⟨runId, 0, 0, 0, 0, [], []⟩

/-- The results of files that failed. -/
def failures (s : Summary) : List FileResult :=
  s.results.filter (·.failure.isSome)

/-- The run with these results, counted. -/
def withResults (s : Summary) (results : List FileResult) : Summary :=
  { s with
    generated := (results.filter (·.failure.isNone)).length
    failed := (results.filter (·.failure.isSome)).length
    results := results
    files := (results.filter (·.failure.isNone)).map (·.output) }

/-- All failures of the run as one, unless there is none. -/
def failure? (s : Summary) : Option Failure :=
  match s.failures.filterMap FileResult.located? with
  | [] => none
  | failures => some (.several failures)

end Summary

end Forwarder
