import DesignTokens.CommandLine.Arguments
import DesignTokens.Json.Printer
import DesignTokens.Rendering.Catalogue
import DesignTokens.Run.Basic

/-
  This file defines what the command line prints and does for an
  invocation.

  Key definitions include:
    * `Report`
    * `Invocation.perform`
    * `Request.answer`

  A report is the text printed and the exit status.  A run that
  is stopped prints nothing but the reason.
-/

------------------------------------------------------------
-- Reports
------------------------------------------------------------

namespace DesignTokens

/- What is printed, what stopped the run, and the exit status. -/
structure Report where
  output : String
  fatal : Option String
  status : Nat
deriving DecidableEq, Repr

namespace Report

/- A text with a line end after every line. -/
def ofLines (lines : List String) : String :=
  String.join (lines.map (· ++ "\n"))

/- The run succeeded. -/
def success (output : String) : Report :=
  ⟨output, none, 0⟩

/- The run was stopped. -/
def stopped (reason : String) : Report :=
  ⟨"", some reason, 1⟩

end Report

end DesignTokens

------------------------------------------------------------
-- Summaries
------------------------------------------------------------

namespace DesignTokens

namespace Summary

/- A label at the right end of ten columns, and a count. -/
def countLine
    (label : String)
    (count : Nat) : String :=
  String.ofList (List.replicate (10 - label.length) ' ')
    ++ label ++ " " ++ toString count

/- The counts of an emission; no deprecated tokens are no line. -/
def counts (emission : Emission) : List String :=
  Collection.all.map
      (fun c => countLine c.title (emission.entries.get c).length)
    ++ [countLine "Warnings" emission.warnings.length]
    ++ (if emission.deprecated.isEmpty then []
        else [countLine "Deprecated" emission.deprecated.length])

/- The line that ends the summary of a check. -/
def verdict (emission : Emission) : String :=
  if emission.warnings.isEmpty then
    "all tokens resolved"
  else
    toString emission.warnings.length ++ " token(s) dropped"

/- The line of a deprecated token. -/
def deprecatedLine (token : DeprecatedToken) : String :=
  match token.replacedBy with
  | some replacement => token.identifier ++ " -> " ++ replacement
  | none => token.identifier ++ " (no replacement)"

/- The lines of the deprecated tokens. -/
def deprecatedLines (tokens : List DeprecatedToken) : List String :=
  if tokens.isEmpty then
    ["no deprecated tokens"]
  else
    tokens.map deprecatedLine

end Summary

end DesignTokens

------------------------------------------------------------
-- Performing an Invocation
------------------------------------------------------------

namespace DesignTokens

variable {m : Type → Type}
variable [Monad m]
variable [Files m]

namespace Command

/- A configuration with what the command line says put over it. -/
def apply
    (config : Config) :
    Command → Config
| build output format descriptions =>
    { config with
      output := output.getD config.output
      format := format.getD config.format
      descriptions := config.descriptions || descriptions }
| _ => config

/- Do what a command says with a configuration. -/
def perform
    (config : Config) :
    Command → ExceptT RunError m Report
| build _ _ _ => do
    let made ← DesignTokens.build config
    return .success (Report.ofLines
      (Summary.counts made.emission ++ ["wrote " ++ made.output]))
| check strict => do
    let emission ← compile config
    let output :=
      Report.ofLines
        (Summary.counts emission ++ [Summary.verdict emission])
    let failed := strict && !emission.warnings.isEmpty
    return ⟨output, none, if failed then 1 else 0⟩
| deprecated json => do
    let emission ← compile config
    let tokens := emission.deprecated
    if json then
      return .success
        ((Catalogue.deprecatedTokens tokens).indented ++ "\n")
    else
      return .success
        (Report.ofLines (Summary.deprecatedLines tokens))

end Command

/-
  Perform an invocation.  A configuration that cannot be loaded
  is reported as such, without its own message.
-/
def Invocation.perform (invocation : Invocation) : m Report := do
  match ← (Config.discover invocation.config).run with
  | .error _ => return .stopped "loading configuration"
  | .ok config =>
      let command := invocation.command
      match ← (command.perform (command.apply config)).run with
      | .error e => return .stopped e.message
      | .ok report => return report

end DesignTokens

------------------------------------------------------------
-- Answering a Request
------------------------------------------------------------

namespace DesignTokens

variable {m : Type → Type}
variable [Monad m]
variable [Files m]

/- The name of the program and its version. -/
def versionLine : String :=
  "tokensmith 0.3.0"

/- How the program is called. -/
def usageLine : String :=
  "Usage: tokensmith [OPTIONS] <build|check|deprecated>"

/- Answer what the arguments ask for. -/
def Request.answer : Request → m Report
| run invocation => invocation.perform
| help => return .success (Report.ofLines [usageLine])
| version => return .success (Report.ofLines [versionLine])
| misuse => return ⟨"", some usageLine, 2⟩

end DesignTokens
