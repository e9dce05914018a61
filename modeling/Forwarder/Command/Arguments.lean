/-
**Arguments.** The command line split into flags and other arguments.

Flags may stand anywhere up to an argument `--`. A name stands behind two dashes, letters behind
one, where several switches share the dash; a value stands behind `=`, behind its letter, or in the
next argument.

* `Arguments.read` — flags and other arguments, or what is wrong with them.
-/

import Forwarder.Command.Flag

namespace Forwarder

/-- What is wrong with arguments. -/
inductive ArgumentFault
  | badSpelling (argument : String)
  | unknownName (name : String)
  | unknownLetter (letter : Char) (letters : String)
  | noValueOfName (name : String)
  | noValueOfLetter (letter : Char)
  /-- A value was refused, with the whole message. -/
  | badValue (message : String)
deriving DecidableEq, Repr

/-- The first byte of a character, as a character. -/
def leadByte (c : Char) : Char :=
  if c.toNat < 0x80 then c
  else if c.toNat < 0x800 then .ofNat (0xc0 + c.toNat / 0x40)
  else if c.toNat < 0x10000 then .ofNat (0xe0 + c.toNat / 0x1000)
  else .ofNat (0xf0 + c.toNat / 0x40000)

/-- A letter between single quotes; of a character beyond ASCII its first byte. -/
def quotedLetter (c : Char) : String :=
  let shown :=
    if c = '\'' then "\\'" else if c = '"' then "\"" else Text.quotedChar (leadByte c)
  "'" ++ shown ++ "'"

/-- The fault as it is reported. -/
def ArgumentFault.message : ArgumentFault → String
  | badSpelling argument => "bad flag syntax: " ++ argument
  | unknownName name => "unknown flag: --" ++ name
  | unknownLetter letter letters =>
    "unknown shorthand flag: " ++ quotedLetter letter ++ " in -" ++ letters
  | noValueOfName name => "flag needs an argument: --" ++ name
  | noValueOfLetter letter =>
    "flag needs an argument: " ++ quotedLetter letter ++ " in -" ++ letter.toString
  | badValue message => message

/-- The command line: the flags, and the other arguments in order. -/
structure Arguments where
  given : Given
  others : List String
deriving DecidableEq, Repr

/-- What one argument with flags comes to. -/
inductive FlagStep
  | done (given : Given)
  /-- The next argument is the value of a flag; the fault holds if there is none. -/
  | wants (given : Given) (flag : Flag) (otherwise : ArgumentFault)

/-- The flags with one more value, as a step. -/
def Given.put (given : Given) (flag : Flag) (text : String) : Except ArgumentFault Given :=
  match given.set flag text with
  | .ok given => .ok given
  | .error message => .error (.badValue message)

/-- The step of a flag with its value. -/
def valued (given : Given) (flag : Flag) (text : String) : Except ArgumentFault FlagStep :=
  (given.put flag text).map .done

/-- The step of a name behind two dashes, and what follows it. -/
def readName (given : Given) (cs : List Char) : Except ArgumentFault FlagStep :=
  let name := String.ofList (cs.takeWhile (· != '='))
  if name.isEmpty ∨ Text.startsBy name "-" then .error (.badSpelling ("--" ++ String.ofList cs))
  else
    match Flag.ofName? name, cs.dropWhile (· != '=') with
    | none, _ => .error (.unknownName name)
    | some flag, _ :: value => valued given flag (String.ofList value)
    | some flag, [] =>
      if flag.isSwitch then valued given flag "true"
      else .ok (.wants given flag (.noValueOfName name))

/-- The step of letters behind one dash. -/
def readLetters (given : Given) : List Char → Except ArgumentFault FlagStep
  | [] => .ok (.done given)
  | c :: cs =>
    match Flag.ofLetter? c with
    | none => .error (.unknownLetter c (String.ofList (c :: cs)))
    | some flag =>
      match cs with
      | '=' :: v :: vs => valued given flag (String.ofList (v :: vs))
      | _ =>
        if flag.isSwitch then
          match given.put flag "true" with
          | .ok given => readLetters given cs
          | .error fault => .error fault
        else if cs.isEmpty then .ok (.wants given flag (.noValueOfLetter c))
        else valued given flag (String.ofList cs)

/-- The step of an argument that holds flags. -/
def readFlags (given : Given) : List Char → Except ArgumentFault FlagStep
  | '-' :: '-' :: cs => readName given cs
  | '-' :: cs => readLetters given cs
  | _ => .ok (.done given)

/-- The argument holds flags. -/
def holdsFlags (argument : String) : Bool :=
  Text.startsBy argument "-" && argument != "-"

namespace Arguments

/-- Flags and other arguments, with the flags given so far. -/
def readWith (given : Given) : List String → Except ArgumentFault Arguments
  | [] => .ok ⟨given, []⟩
  | argument :: rest =>
    if argument = "--" then .ok ⟨given, rest⟩
    else if !holdsFlags argument then
      match readWith given rest with
      | .ok arguments => .ok { arguments with others := argument :: arguments.others }
      | .error fault => .error fault
    else
      match readFlags given argument.toList, rest with
      | .error fault, _ => .error fault
      | .ok (.done given), rest => readWith given rest
      | .ok (.wants _ _ fault), [] => .error fault
      | .ok (.wants given flag _), value :: rest =>
        match given.put flag value with
        | .ok given => readWith given rest
        | .error fault => .error fault

/-- Flags and other arguments. -/
def read (arguments : List String) : Except ArgumentFault Arguments :=
  readWith [] arguments

end Arguments

end Forwarder
