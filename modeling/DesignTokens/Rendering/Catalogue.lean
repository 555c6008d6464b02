import DesignTokens.Emission.Basic
import DesignTokens.Json.Printer

/-
  This file defines the JSON document of an emission.

  Key definitions include:
    * `Catalogue.toJson`
    * `Catalogue.render`

  The document lists the deprecated tokens, and then for each
  layer an object of its variables in order.
-/

------------------------------------------------------------
-- The Document of an Emission
------------------------------------------------------------

namespace DesignTokens

namespace Catalogue

/- A text that may be absent. -/
def optionalText : Option String → Json
| none => .null
| some s => .text s

/- The object of a deprecated token. -/
def deprecatedToken (token : DeprecatedToken) : Json :=
  .object [
    ("identifier", .text token.identifier),
    ("collection", .text token.collection.name),
    ("path", .text (dotted token.path)),
    ("replacedBy", optionalText token.replacedBy)]

/- The list of deprecated tokens. -/
def deprecatedTokens (tokens : List DeprecatedToken) : Json :=
  .array (tokens.map deprecatedToken)

/- The object of the variables of a layer. -/
def layerObject (entries : List Entry) : Json :=
  .object (entries.map fun e => (e.identifier, .text e.value))

/- The document of an emission. -/
def toJson (emission : Emission) : Json :=
  .object (("deprecated", deprecatedTokens emission.deprecated)
    :: Collection.all.map fun c =>
        (c.name, layerObject (emission.entries.get c)))

/- The text of the document of an emission. -/
def render (emission : Emission) : String :=
  (toJson emission).indented ++ "\n"

end Catalogue

end DesignTokens
