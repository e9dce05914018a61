/-
**Events.** What happens during a run that someone watches: notices for the console, failed files
for the report, and the units of a dry run.

* `Event` — one thing that happened.
* `Event.printed` — what all of it looks like on one pair of outputs.
-/

import Forwarder.Console
import Forwarder.Report

namespace Forwarder

/-- One thing that happened during a run. -/
inductive Event
  | told (notice : Notice)
  | failed (path : String) (failure : Failure)
  | previewed (text : String)
deriving Repr

/-- How a run is watched: through a console, and with hints or without. -/
structure Watching where
  console : Console
  verbose : Bool
deriving DecidableEq, Repr

/-- Quiet wins over verbose. -/
def Watching.ofFlags (quiet verbose : Bool) : Watching where
  console := if quiet then .quiet else if verbose then .talkative else .informative
  verbose := verbose

namespace Event

/-- What the console prints. -/
def onConsole (w : Watching) : Event → Printed
  | told notice => w.console.tell notice
  | _ => .nothing

/-- What the report says. -/
def inReport (w : Watching) : Event → String
  | failed path failure => Report.failure w.verbose path failure
  | _ => ""

/-- What a dry run shows. -/
def inPreview : Event → String
  | previewed text => text
  | _ => ""

/-- What is printed when units go to the regular output and reports to the error output. -/
def printed (w : Watching) (e : Event) : Printed :=
  e.onConsole w ++ ⟨e.inPreview, e.inReport w⟩

/-- What is printed for events one after the other. -/
def printedAll (w : Watching) : List Event → Printed
  | [] => .nothing
  | event :: events => event.printed w ++ printedAll w events

end Event

end Forwarder
