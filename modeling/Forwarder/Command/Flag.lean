/-
**Flags.** The flags of the command line, their values, and the settings that they stand for.

* `Flag` — the flags, with their names and letters.
* `Given.set` — takes the text of a value; a list grows with each use of its flag.
* `Given.entries` — the flags as settings.
-/

import Forwarder.Config.File
import Forwarder.Text.CommaList
import Forwarder.Text.Integer
import Forwarder.Text.Quoted

namespace Forwarder

/-- The flags of the command line. -/
inductive Flag
  | configFile
  | outputDir
  | sourcePath
  | descriptorDir
  | workers
  | allOrNothing
  | dryRun
  | verbose
  | quiet
  | logLevel
  | logFormat
  | help
deriving DecidableEq, Repr

/-- What the value of a flag is. -/
inductive FlagKind
  | text
  | list
  | number
  /-- A truth value, which may be left out. -/
  | switch
deriving DecidableEq, Repr

namespace Flag

/-- All flags. -/
def all : List Flag :=
  [configFile, outputDir, sourcePath, descriptorDir, workers, allOrNothing, dryRun, verbose, quiet,
    logLevel, logFormat, help]

/-- The name of a flag, as it stands behind two dashes. -/
def name : Flag → String
  | configFile => "config"
  | outputDir => "output-dir"
  | sourcePath => "source-path"
  | descriptorDir => "descriptor-dir"
  | workers => "workers"
  | allOrNothing => "all-or-nothing"
  | dryRun => "dry-run"
  | verbose => "verbose"
  | quiet => "quiet"
  | logLevel => "log-level"
  | logFormat => "log-format"
  | help => "help"

/-- The letter of a flag, as it stands behind one dash. -/
def letter? : Flag → Option Char
  | outputDir => some 'o'
  | workers => some 'j'
  | verbose => some 'v'
  | quiet => some 'q'
  | help => some 'h'
  | _ => none

/-- The kind of a flag. -/
def kind : Flag → FlagKind
  | configFile | outputDir | logLevel | logFormat => .text
  | sourcePath | descriptorDir => .list
  | workers => .number
  | allOrNothing | dryRun | verbose | quiet | help => .switch

/-- The value of the flag may be left out. -/
def isSwitch (flag : Flag) : Bool :=
  flag.kind == .switch

/-- The setting that a flag stands for. -/
def key? : Flag → Option String
  | outputDir => some "output_dir"
  | sourcePath => some "source_path"
  | descriptorDir => some "descriptor_dirs"
  | workers => some "workers"
  | allOrNothing => some "all_or_nothing"
  | dryRun => some "dry_run"
  | verbose => some "verbose"
  | quiet => some "quiet"
  | logLevel => some "log_level"
  | logFormat => some "log_format"
  | configFile | help => none

/-- The flag of a name. -/
def ofName? (name : String) : Option Flag :=
  all.find? (·.name == name)

/-- The flag of a letter. -/
def ofLetter? (letter : Char) : Option Flag :=
  all.find? (·.letter? == some letter)

/-- A flag as messages name it. -/
def title (flag : Flag) : String :=
  match flag.letter? with
  | some letter => "-" ++ letter.toString ++ ", --" ++ flag.name
  | none => "--" ++ flag.name

end Flag

/-- The value of a flag. -/
inductive FlagValue
  | text (value : String)
  | list (values : List String)
  | number (value : Int)
  | truth (value : Bool)
deriving DecidableEq, Repr

namespace FlagValue

/-- The value as a setting. A list reaches its setting as a text, so it is read once more. -/
def node : FlagValue → Yaml.Node
  | text value => .ofText value
  | list values => .sequence ((Text.rewritten values).map .ofText)
  | number value => .scalar (.integer value) (toString value)
  | truth value => .scalar (.truth value) (toString value)

/-- The texts of a list. -/
def texts : FlagValue → List String
  | list values => values
  | _ => []

end FlagValue

/-- The flags that were given, with their values. -/
abbrev Given :=
  List (Flag × FlagValue)

namespace Given

/-- The value of a text for a flag; a list continues the one given before. -/
def valueOf (given : Given) (flag : Flag) (text : String) : Except String FlagValue :=
  match flag.kind with
  | .text => .ok (.text text)
  | .list =>
    match Text.readCommaList text with
    | .ok parts => .ok (.list (((given.lookup flag).map (·.texts)).getD [] ++ parts))
    | .error fault => .error fault.message
  | .number =>
    match Text.readInteger text with
    | .ok n => .ok (.number n)
    | .error fault =>
      .error ("strconv.ParseInt: parsing " ++ Text.quoted text ++ ": " ++ fault.message)
  | .switch =>
    match Text.readTruth text with
    | some b => .ok (.truth b)
    | none => .error ("strconv.ParseBool: parsing " ++ Text.quoted text ++ ": invalid syntax")

/-- The flags with one more value. -/
def set (given : Given) (flag : Flag) (text : String) : Except String Given :=
  match given.valueOf flag text with
  | .ok value => .ok ((flag, value) :: given.filter (·.1 != flag))
  | .error reason =>
    .error ("invalid argument " ++ Text.quoted text ++ " for " ++ Text.quoted flag.title ++
      " flag: " ++ reason)

/-- The flags as settings. -/
def entries (given : Given) : Entries :=
  given.filterMap fun (flag, value) => flag.key?.map fun key => (key, value.node)

/-- The text of a flag, empty if it was not given. -/
def text (given : Given) (flag : Flag) : String :=
  match given.lookup flag with
  | some (.text value) => value
  | _ => ""

/-- The switch was given and not taken back. -/
def isOn (given : Given) (flag : Flag) : Bool :=
  given.lookup flag == some (.truth true)

end Given

end Forwarder
