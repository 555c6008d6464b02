import DesignTokens.Config.Yaml
import DesignTokens.Emission.Basic
import DesignTokens.Files.Basic
import DesignTokens.Store.Source

/-
  This file defines runs: from a configuration and files to an
  emission and an output document.

  Key definitions include:
    * `RunError`
    * `Config.load`
    * `Config.discover`
    * `compile`
    * `build`

  A run stops at a bad configuration, at a document that cannot
  be loaded, and at an output that cannot be written.  It writes
  nothing before everything else has succeeded.
-/

------------------------------------------------------------
-- Errors
------------------------------------------------------------

namespace DesignTokens

/-
  What stops a run.  Rendering has no case of its own, since it
  cannot fail here: the template is fixed, and both formats take
  whatever texts an emission holds.
-/
inductive RunError where
| config (e : ConfigError)
| load (e : LoadError)
| unwritable (path : String)
deriving DecidableEq, Repr

namespace RunError

/-
  The text of the error.  What the system or a parser adds to it
  is not part of the text.
-/
def message : RunError → String
| config e => e.message
| load e => e.message
| unwritable path => "cannot write " ++ path

end RunError

/- An outcome that is already known. -/
def settledAs
    {m : Type → Type}
    [Monad m]
    {ε α : Type} :
    Except ε α → ExceptT ε m α
| .ok a => pure a
| .error e => throw e

end DesignTokens

------------------------------------------------------------
-- Loading
------------------------------------------------------------

namespace DesignTokens

variable {m : Type → Type}
variable [Monad m]
variable [Files m]

namespace Config

/-
  Load the configuration at a path.  Its relative paths are seen
  from the directory that it stands in.
-/
def load (path : String) : ExceptT ConfigError m Config := do
  match ← Files.readText? (m := m) path with
  | none => throw (.unreadable path)
  | some text =>
      let config ← settledAs (Config.ofYaml text)
      return config.relativeTo ((Path.parent? path).getD "")

/-
  Load the configuration at a path, if one is given.  Otherwise
  load the file of the usual name if it is there.
-/
def discover : Option String → ExceptT ConfigError m Config
| some path => load path
| none => do
    if ← Files.isFile (m := m) fileName then
      load fileName
    else
      return default

end Config

/- Load the document of a layer. -/
def Document.load
    (c : Collection)
    (path : String) : ExceptT LoadError m Document := do
  match ← Files.readText? (m := m) path with
  | none => throw (.unreadable c path)
  | some content => settledAs (SourceText.read c ⟨path, content⟩)

/- Load the documents of a store. -/
def Store.load
    (sources : Layers String) : ExceptT LoadError m Store := do
  let primitives ← Document.load .primitives sources.primitives
  let semantic ← Document.load .semantic sources.semantic
  let component ← Document.load .component sources.component
  settledAs (Store.build ⟨primitives, semantic, component⟩)

end DesignTokens

------------------------------------------------------------
-- Runs
------------------------------------------------------------

namespace DesignTokens

variable {m : Type → Type}
variable [Monad m]
variable [Files m]

/- Load the documents of a configuration and emit their store. -/
def compile (config : Config) : ExceptT RunError m Emission := do
  ExceptT.adapt .config (settledAs config.check)
  let store ← ExceptT.adapt .load (Store.load config.sources)
  return store.emit config.emitOptions

/- What a run that wrote its output has made. -/
structure Build where
  emission : Emission
  output : String
  document : String
deriving DecidableEq, Repr

/- Compile a configuration and write the output document. -/
def build (config : Config) : ExceptT RunError m Build := do
  let emission ← compile config
  let document := emission.render config.renderOptions
  if ← writeDocument (m := m) config.output document then
    return ⟨emission, config.output, document⟩
  else
    throw (.unwritable config.output)

end DesignTokens
