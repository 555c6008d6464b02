import DesignTokens.Namer
import DesignTokens.Path.Basic
import DesignTokens.Reference.Resolution
import DesignTokens.Rendering.Basic

/-
  This file defines the configuration of a run.

  Key definitions include:
    * `Config`
    * `Config.default`
    * `Config.relativeTo`
    * `Config.check`
    * `ConfigError`
-/

------------------------------------------------------------
-- Configurations
------------------------------------------------------------

namespace DesignTokens

/- What a run reads, how it names tokens and what it writes. -/
structure Config where
  sources : Layers String
  output : String
  format : OutputFormat
  namer : Namer
  maxDepth : Nat
  descriptions : Bool
deriving DecidableEq, Repr

namespace Config

/- The file that is looked for when no other is named. -/
def fileName : String :=
  "tokensmith.yaml"

/- Where the documents stand unless told otherwise. -/
def defaultSources : Layers String :=
  ⟨"tokens/primitives.json",
    "tokens/semantic.json",
    "tokens/components.json"⟩

/- The configuration of a run that is told nothing. -/
def default : Config :=
  { sources := defaultSources
    output := "dist/tokens.css"
    format := .css
    namer := ⟨Namer.defaultRoot⟩
    maxDepth := Store.defaultLimit
    descriptions := false }

/- The configuration with its paths seen from a base. -/
def relativeTo
    (base : String)
    (config : Config) : Config :=
  { config with
    sources := config.sources.map (Path.join base)
    output := Path.join base config.output }

/- How tokens are emitted. -/
def emitOptions (config : Config) : EmitOptions :=
  ⟨config.namer, config.maxDepth⟩

/- How the output is written. -/
def renderOptions (config : Config) : RenderOptions :=
  ⟨config.format, config.descriptions⟩

end Config

end DesignTokens

------------------------------------------------------------
-- Errors
------------------------------------------------------------

namespace DesignTokens

/- Why there is no configuration, or why it cannot be used. -/
inductive ConfigError where
| unreadable (path : String)
| unparsable
| zeroDepth
deriving DecidableEq, Repr

namespace ConfigError

/-
  The text of the error.  What the system or a parser adds to it
  is not part of the text.
-/
def message : ConfigError → String
| unreadable path => "cannot read config " ++ path
| unparsable => "invalid config"
| zeroDepth => "invalid config: max-depth must be at least 1"

end ConfigError

namespace Config

/- Chains of references must be allowed one hop at least. -/
def check (config : Config) : Except ConfigError Unit :=
  if config.maxDepth = 0 then .error .zeroDepth else .ok ()

end Config

end DesignTokens
