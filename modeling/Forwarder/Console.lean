/-
**The console.** What the tool tells the user while it works: each notice has a level, and a console
shows the notices up to its own level.

* `Notice` — what can be told.
* `Console.tell` — what a notice prints, on the regular and on the error output.
-/

import Forwarder.Text.Order
import Forwarder.Text.Pieces

namespace Forwarder

/-- Texts printed on the regular and on the error output. -/
structure Printed where
  out : String
  err : String
deriving DecidableEq, Repr, Inhabited

namespace Printed

/-- Nothing was printed. -/
def nothing : Printed :=
  ⟨"", ""⟩

/-- Printed on the regular output. -/
def regular (text : String) : Printed :=
  ⟨text, ""⟩

/-- Printed on the error output. -/
def error (text : String) : Printed :=
  ⟨"", text⟩

/-- Printed one after the other. -/
def append (a b : Printed) : Printed :=
  ⟨a.out ++ b.out, a.err ++ b.err⟩

instance : Append Printed :=
  ⟨append⟩

end Printed

/-- The levels of notices, by number. -/
inductive Level
  | error
  | warn
  | info
  | verbose
  | debug
deriving DecidableEq, Repr

/-- The number of a level; silence is zero. -/
def Level.number : Level → Int
  | error => 1
  | warn => 2
  | info => 3
  | verbose => 4
  | debug => 5

/-- What the user can be told. -/
inductive Notice
  | error (text : String)
  | warn (text : String)
  | info (text : String)
  | success (text : String)
  | verbose (text : String)
  | debug (text : String)
  | item (text : String)
  | heading (title : String)
  | header (text : String)
  | sourcePath (path : String)
  | phaseHeader (phase : String)
  | phaseItem (text : String)
  | phaseFailure (text : String)
  | phaseProgress (text : String)
  | summary (title : String) (stats : List (String × Int))
  | complete
deriving Repr

/-- The level from which a notice is shown. -/
def Notice.level : Notice → Level
  | error _ | phaseFailure _ => .error
  | warn _ => .warn
  | verbose _ => .verbose
  | debug _ => .debug
  | _ => .info

/-- A console: its level, and how far notices are indented. -/
structure Console where
  level : Int
  indent : Nat
deriving DecidableEq, Repr

namespace Console

/-- A console of a level. -/
def ofLevel (level : Int) : Console :=
  ⟨level, 0⟩

/-- Shows errors only. -/
def quiet : Console :=
  ofLevel Level.error.number

/-- Shows what happens. -/
def informative : Console :=
  ofLevel Level.info.number

/-- Shows everything but the debugging notices. -/
def talkative : Console :=
  ofLevel Level.verbose.number

/-- Indents one level more. -/
def indented (c : Console) : Console :=
  { c with indent := c.indent + 1 }

/-- Indents one level less. -/
def unindented (c : Console) : Console :=
  { c with indent := c.indent - 1 }

/-- The blanks in front of a notice. -/
def margin (c : Console) : String :=
  Text.times c.indent "  "

/-- A message behind its tag. -/
def tagged (c : Console) (tag text : String) : String :=
  c.margin ++ "[" ++ tag ++ "] " ++ text ++ "\n"

/-- The lines of a summary, in the order of the names. -/
def summaryText (title : String) (stats : List (String × Int)) : String :=
  "\n" ++ title ++ "\n" ++
    String.join ((Text.sortedByKey stats).map fun (name, count) =>
      "   " ++ name ++ ": " ++ toString count ++ "\n") ++ "\n"

/-- What a notice prints, if it is shown. -/
def print (c : Console) : Notice → Printed
  | .error text => .error (c.tagged "ERROR" text)
  | .warn text => .regular (c.tagged "WARN" text)
  | .info text => .regular (c.tagged "INFO" text)
  | .success text => .regular (c.tagged "SUCCESS" text)
  | .verbose text => .regular (c.tagged "VERBOSE" text)
  | .debug text => .regular (c.tagged "DEBUG" text)
  | .item text => .regular (c.margin ++ "- " ++ text ++ "\n")
  | .heading title => .regular (title ++ "\n")
  | .header text => .regular ("Decorator: " ++ text ++ "\n")
  | .sourcePath path => .regular ("Source Path: " ++ path ++ "\n\n")
  | .phaseHeader phase => .regular (phase ++ ":\n")
  | .phaseItem text => .regular ("✓ " ++ text ++ "\n")
  | .phaseFailure text => .error ("✗ " ++ text ++ "\n")
  | .phaseProgress text =>
    .regular ((if Text.startsBy text "Writing" then "✏ " else "- ") ++ text ++ "\n")
  | .summary title stats => .regular (summaryText title stats)
  | .complete => .regular "\nDecorator: Generation complete!\n"

/-- What a notice prints on this console. -/
def tell (c : Console) (notice : Notice) : Printed :=
  if notice.level.number ≤ c.level then c.print notice else .nothing

/-- What notices print one after the other. -/
def tellAll (c : Console) : List Notice → Printed
  | [] => .nothing
  | notice :: notices => c.tell notice ++ c.tellAll notices

end Console

end Forwarder
