import DesignTokens.Rendering.OutputFormat
import DesignTokens.Text.Split

/-
  This file defines the arguments of the command line.

  Key definitions include:
    * `Command`
    * `Invocation`
    * `Request`
    * `Request.ofArguments`

  Options may stand before and after the command.  They are read
  from left to right, and the first fault or the first request
  for help or the version decides.
-/

------------------------------------------------------------
-- Requests
------------------------------------------------------------

namespace DesignTokens

/- What is to be done. -/
inductive Command where
| build
    (output : Option String)
    (format : Option OutputFormat)
    (descriptions : Bool)
| check (strict : Bool)
| deprecated (json : Bool)
deriving DecidableEq, Repr

/- A command and the options that every command has. -/
structure Invocation where
  config : Option String
  verbosity : Nat
  command : Command
deriving DecidableEq, Repr

/- What the arguments ask for. -/
inductive Request where
| run (invocation : Invocation)
| help
| version
| misuse
deriving DecidableEq, Repr

end DesignTokens

------------------------------------------------------------
-- Options
------------------------------------------------------------

namespace DesignTokens

namespace Arguments

/- The names of commands. -/
inductive CommandName where
| build
| check
| deprecated
deriving DecidableEq, Repr

/- The command with a name. -/
def CommandName.ofText? (s : String) : Option CommandName :=
  if s = "build" then some .build
  else if s = "check" then some .check
  else if s = "deprecated" then some .deprecated
  else none

/- The options of all commands. -/
inductive OptionName where
| config
| verbose
| help
| version
| output
| format
| descriptions
| strict
| json
deriving DecidableEq, Repr

namespace OptionName

/- The long name of an option. -/
def long : OptionName → String
| config => "config"
| verbose => "verbose"
| help => "help"
| version => "version"
| output => "output"
| format => "format"
| descriptions => "descriptions"
| strict => "strict"
| json => "json"

/- The letter of an option, if it has one. -/
def letter? : OptionName → Option Char
| config => some 'c'
| verbose => some 'v'
| help => some 'h'
| version => some 'V'
| output => some 'o'
| format => some 'f'
| _ => none

/- Options that are followed by a value. -/
def takesValue : OptionName → Bool
| config => true
| output => true
| format => true
| _ => false

/- The options before a command, or those of the command. -/
def available : Option CommandName → List OptionName
| none => [config, verbose, help, version]
| some .build =>
    [config, verbose, help, output, format, descriptions]
| some .check => [config, verbose, help, strict]
| some .deprecated => [config, verbose, help, json]

end OptionName

/- The options read so far. -/
structure Settings where
  config : Option String
  verbosity : Nat
  output : Option String
  format : Option OutputFormat
  descriptions : Bool
  strict : Bool
  json : Bool
deriving DecidableEq, Repr

namespace Settings

/- No options. -/
def none : Settings :=
  ⟨.none, 0, .none, .none, false, false, false⟩

/- Set a path that is not set yet; it may not be empty. -/
def once?
    (old : Option String)
    (value : String) : Option (Option String) :=
  if old.isSome || value = "" then .none else some (some value)

/-
  Set an option that is followed by a value.  It may stand only
  once.
-/
def setValue?
    (s : Settings)
    (option : OptionName)
    (value : String) : Option Settings :=
  match option with
  | .config =>
      (once? s.config value).map fun v => { s with config := v }
  | .output =>
      (once? s.output value).map fun v => { s with output := v }
  | .format =>
      match s.format, OutputFormat.ofName? value with
      | .none, some f => some { s with format := some f }
      | _, _ => .none
  | _ => .none

/-
  Set an option without a value.  Only the one for verbosity may
  stand more than once.
-/
def setFlag?
    (s : Settings)
    (option : OptionName) : Option Settings :=
  match option with
  | .verbose => some { s with verbosity := s.verbosity + 1 }
  | .descriptions =>
      if s.descriptions then .none
      else some { s with descriptions := true }
  | .strict =>
      if s.strict then .none else some { s with strict := true }
  | .json =>
      if s.json then .none else some { s with json := true }
  | _ => .none

end Settings

end Arguments

end DesignTokens

------------------------------------------------------------
-- Reading Single Arguments
------------------------------------------------------------

namespace DesignTokens

namespace Arguments

/- What a single argument does. -/
inductive Effect where
/- The options changed. -/
| settings (s : Settings)
/- The next argument is the value of an option. -/
| needsValue (s : Settings) (option : OptionName)
/- The argument decides the request. -/
| decided (request : Request)

/- Set an option without a value, or answer it. -/
def flag
    (s : Settings) :
    OptionName → Effect
| .help => .decided .help
| .version => .decided .version
| option =>
    match s.setFlag? option with
    | some s => .settings s
    | none => .decided .misuse

/- Set an option with a value. -/
def valued
    (s : Settings)
    (option : OptionName)
    (value : List Char) : Effect :=
  match s.setValue? option (String.ofList value) with
  | some s => .settings s
  | none => .decided .misuse

/- Read an argument after two dashes: a name and maybe a value. -/
def long
    (command : Option CommandName)
    (s : Settings)
    (cs : List Char) : Effect :=
  let name := cs.takeWhile (· ≠ '=')
  let found :=
    (OptionName.available command).find?
      (fun option => option.long.toList = name)
  match found, cs.drop name.length with
  | none, _ => .decided .misuse
  | some option, [] =>
      if option.takesValue then .needsValue s option else flag s option
  | some option, _ :: value =>
      if option.takesValue then valued s option value
      else .decided .misuse

/-
  Read letters after a dash.  The rest of the argument is the
  value of the first option that takes one; an equals sign may
  stand before it.
-/
def letters
    (command : Option CommandName) :
    Settings → List Char → Effect
| s, [] => .settings s
| s, c :: cs =>
    let found :=
      (OptionName.available command).find?
        (fun option => option.letter? = some c)
    match found with
    | none => .decided .misuse
    | some option =>
        if option.takesValue then
          match cs with
          | [] => .needsValue s option
          | '=' :: value => valued s option value
          | value => valued s option value
        else
          match flag s option with
          | .settings s => letters command s cs
          | effect => effect

/- The argument is an option and no value: a dash and more. -/
def looksLikeOption (arg : String) : Bool :=
  match arg.toList with
  | '-' :: _ :: _ => true
  | _ => false

/- Read an argument that looks like an option. -/
def option
    (command : Option CommandName)
    (s : Settings)
    (arg : String) : Effect :=
  match arg.toList with
  | '-' :: '-' :: cs => long command s cs
  | '-' :: cs => letters command s cs
  | _ => .decided .misuse

end Arguments

end DesignTokens

------------------------------------------------------------
-- Reading All Arguments
------------------------------------------------------------

namespace DesignTokens

namespace Arguments

/- The command with a name and the options of its own. -/
def Settings.command (s : Settings) : CommandName → Command
| .build => .build s.output s.format s.descriptions
| .check => .check s.strict
| .deprecated => .deprecated s.json

/-
  The invocation of a command with options before and after it.
  An option after the command stands in place of the same option
  before it.
-/
def invocation
    (outer s : Settings)
    (name : CommandName) : Invocation :=
  { config := s.config.or outer.config
    verbosity :=
      if s.verbosity = 0 then outer.verbosity else s.verbosity
    command := s.command name }

/- Help may be asked for a command, or for help itself. -/
def helpFor : List String → Request
| [] => .help
| [topic] =>
    if topic = "help" || (CommandName.ofText? topic).isSome then
      .help
    else
      .misuse
| _ => .misuse

/-
  Read the arguments after a command, given the options before
  it.  Commands take no arguments other than options.
-/
def afterCommand
    (name : CommandName)
    (outer : Settings) :
    Settings → List String → Request
| s, [] => .run (invocation outer s name)
| s, arg :: args =>
    if arg = "--" then
      if args = [] then .run (invocation outer s name) else .misuse
    else if looksLikeOption arg then
      match option (some name) s arg, args with
      | .decided request, _ => request
      | .settings s, args => afterCommand name outer s args
      | .needsValue _ _, [] => .misuse
      | .needsValue s option, value :: args =>
          if looksLikeOption value then
            .misuse
          else
            match s.setValue? option value with
            | some s => afterCommand name outer s args
            | none => .misuse
    else
      .misuse

/- Read arguments up to the command and after it. -/
def beforeCommand : Settings → List String → Request
| _, [] => .misuse
| s, arg :: args =>
    if arg = "--" then
      .misuse
    else if looksLikeOption arg then
      match option none s arg, args with
      | .decided request, _ => request
      | .settings s, args => beforeCommand s args
      | .needsValue _ _, [] => .misuse
      | .needsValue s option, value :: args =>
          if looksLikeOption value then
            .misuse
          else
            match s.setValue? option value with
            | some s => beforeCommand s args
            | none => .misuse
    else if arg = "help" then
      helpFor args
    else
      match CommandName.ofText? arg with
      | some name => afterCommand name s Settings.none args
      | none => .misuse

end Arguments

/- What arguments ask for. -/
def Request.ofArguments (args : List String) : Request :=
  Arguments.beforeCommand Arguments.Settings.none args

end DesignTokens
