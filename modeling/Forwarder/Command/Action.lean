/-
**Actions.** Which of its jobs the tool is asked to do.

The job is named by the first argument that is neither a flag nor the value of one. Where that
argument names no job, the job is to generate, and the argument counts as any other.

* `Action` — the jobs.
* `Action.choose` — the job, and the arguments without its name.
-/

import Forwarder.Command.Flag

namespace Forwarder

/-- The jobs of the tool. -/
inductive Action
  | generate
  | clean
  | describe
deriving DecidableEq, Repr

/-- The next argument is taken for the value of this one: it is a flag with a name or a single
letter, no value behind `=`, and no switch. Flags that nobody knows count as such. -/
def takesNext (argument : String) : Bool :=
  !Text.contains argument "=" &&
    match argument.toList with
    | '-' :: '-' :: name => !(Flag.ofName? (String.ofList name)).any Flag.isSwitch
    | ['-', letter] => letter.utf8Size == 1 && !(Flag.ofLetter? letter).any Flag.isSwitch
    | _ => false

/-- The argument is neither a flag nor empty. -/
def isWord (argument : String) : Bool :=
  argument != "" && !Text.startsBy argument "-"

/-- The first argument that is neither a flag nor the value of one. The value of a flag at the end
is not looked for, nor what follows it. -/
def firstWord? : List String → Option String
  | [] => none
  | argument :: rest =>
    if argument = "--" then none
    else if takesNext argument then
      match rest with
      | _ :: next :: rest => firstWord? (next :: rest)
      | _ => none
    else if isWord argument then some argument
    else firstWord? rest

/-- The arguments without the first one that is the word and not the value of a flag. -/
def withoutWord (word : String) : List String → List String
  | [] => []
  | argument :: rest =>
    if argument = "--" then argument :: rest
    else if takesNext argument then
      match rest with
      | value :: rest => argument :: value :: withoutWord word rest
      | [] => [argument]
    else if argument = word then rest
    else argument :: withoutWord word rest

namespace Action

/-- The job of a name. -/
def ofName? (name : String) : Option Action :=
  if name = "generate" then some generate
  else if name = "clean" then some clean
  else if name = "describe" then some describe
  else none

/-- The job, and the arguments without its name. -/
def choose (arguments : List String) : Action × List String :=
  match firstWord? arguments with
  | some word =>
    match ofName? word with
    | some action => (action, withoutWord word arguments)
    | none => (generate, arguments)
  | none => (generate, arguments)

end Action

end Forwarder
