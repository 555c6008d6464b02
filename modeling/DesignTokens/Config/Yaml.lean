import DesignTokens.Config.Basic
import DesignTokens.Yaml.Document

/-
  This file defines reading a configuration from a YAML text.

  Key definitions include:
    * `Config.ofStream?`
    * `Config.ofYaml`

  Every key may be left out.  An unknown key and a key that is
  written twice are refused, except that unknown keys are passed
  over among the sources.
-/

------------------------------------------------------------
-- Fields
------------------------------------------------------------

namespace DesignTokens

namespace Yaml

/- The entries of a node that is a mapping, keys as texts. -/
def Node.entries?
    (targets : Targets)
    (node : Node) : Option (List (String × Node)) :=
  match node.follow? targets with
  | some (.mapping _ entries) =>
      entries.mapM fun entry =>
        (entry.1.text? targets).map fun key => (key, entry.2)
  | some (.scalar _ .plain "") => some []
  | _ => none

/-
  The text of a scalar that is plain, or literal with the tag of
  the expected type.
-/
def Node.typedText?
    (targets : Targets)
    (tag : Tag)
    (node : Node) : Option String :=
  match node.follow? targets with
  | some (.scalar _ .plain text) => some text
  | some (.scalar props .literal text) =>
      if props.tag = some tag then some text else none
  | _ => none

end Yaml

namespace Config

/- A field that may be left out, read by the given reader. -/
def field?
    {α : Type}
    (entries : List (String × Yaml.Node))
    (key : String)
    (read? : Yaml.Node → Option α)
    (otherwise : α) : Option α :=
  match entries.lookup key with
  | some node => read? node
  | none => some otherwise

/- Read an unsigned number of 64 bits. -/
def readNumber?
    (targets : Yaml.Targets)
    (node : Yaml.Node) : Option Nat :=
  (node.typedText? targets (.core "int")).bind
    fun text => Yaml.ofUnsigned? text.toList

/- Read a boolean. -/
def readFlag?
    (targets : Yaml.Targets)
    (node : Yaml.Node) : Option Bool :=
  (node.typedText? targets (.core "bool")).bind
    Yaml.booleanOfWord?

/-
  Read a format from its name, or from a tag with its name before
  nothing or null.
-/
def readFormat?
    (targets : Yaml.Targets)
    (node : Yaml.Node) : Option OutputFormat :=
  match node.follow? targets with
  | some (.scalar props style text) =>
      match props.tag.bind Yaml.Tag.ownName? with
      | some name =>
          if style = .plain && (text = "" || Yaml.isNullWord text) then
            OutputFormat.ofExactName? name
          else
            none
      | none => OutputFormat.ofExactName? text
  | _ => none

end Config

end DesignTokens

------------------------------------------------------------
-- Configurations
------------------------------------------------------------

namespace DesignTokens

namespace Config

/- The keys of a configuration. -/
def keys : List String :=
  ["sources", "output", "format", "namespace", "max-depth",
    "descriptions"]

/- Read the sources; each layer has a key of its name. -/
def readSources?
    (targets : Yaml.Targets)
    (node : Yaml.Node) : Option (Layers String) := do
  let entries ← node.entries? targets
  let known :=
    (entries.map Prod.fst).filter
      (· ∈ Collection.all.map Collection.name)
  if known.Nodup then
    let path (c : Collection) : Option String :=
      field? entries c.name (Yaml.Node.text? targets)
        (defaultSources.get c)
    return ⟨← path .primitives, ← path .semantic, ← path .component⟩
  else
    none

/- Read a configuration from the root of a document. -/
def ofRoot? (root : Yaml.Node) : Option Config := do
  let targets := Yaml.Targets.ofRoot root
  let entries ← root.entries? targets
  let written := entries.map Prod.fst
  if written.Nodup ∧ ∀ key ∈ written, key ∈ keys then
    let text := Yaml.Node.text? targets
    return {
      sources :=
        ← field? entries "sources" (readSources? targets)
          default.sources
      output := ← field? entries "output" text default.output
      format :=
        ← field? entries "format" (readFormat? targets)
          default.format
      namer :=
        ⟨← field? entries "namespace" text default.namer.root⟩
      maxDepth :=
        ← field? entries "max-depth" (readNumber? targets)
          default.maxDepth
      descriptions :=
        ← field? entries "descriptions" (readFlag? targets)
          default.descriptions }
  else
    none

/- Read a configuration from a stream; an empty one says nothing. -/
def ofStream? : Yaml.Stream → Option Config
| .void => some default
| .document root => ofRoot? root

/- Read a configuration from a YAML text, and check it. -/
def ofYaml (text : String) : Except ConfigError Config :=
  match (Yaml.readStream? text).bind ofStream? with
  | none => .error .unparsable
  | some config =>
      match config.check with
      | .error e => .error e
      | .ok () => .ok config

end Config

end DesignTokens
