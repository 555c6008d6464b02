import DesignTokens.Emission.Leaf
import DesignTokens.Namer
import DesignTokens.Store.Basic

/-
  This file defines the list of deprecated tokens.

  Key definitions include:
    * `DeprecatedToken`
    * `Store.audit`

  The audit looks at the leaves of the semantic and component
  layers, also at those that are left out of the output, and
  lists each deprecated one once.
-/

------------------------------------------------------------
-- Deprecated Tokens
------------------------------------------------------------

namespace DesignTokens

/-
  A deprecated token and its replacement as authored.  `path` is
  the keys that lead to its leaf; the catalogue shows their
  dotted text.
-/
structure DeprecatedToken where
  identifier : String
  collection : Collection
  path : List String
  replacedBy : Option String
deriving DecidableEq, Repr

namespace DeprecatedToken

/- The audit's item for a leaf, if it is deprecated. -/
def ofLeaf?
    (namer : Namer)
    (c : Collection)
    (leaf : Leaf) : Option DeprecatedToken :=
  (Record.deprecationOf? leaf.node).map fun deprecation =>
    { identifier := namer.identifier leaf.path c
      collection := c
      path := leaf.path
      replacedBy := deprecation.replacedBy }

end DeprecatedToken

/- The layers that are audited, in order. -/
def Collection.audited : List Collection :=
  [.semantic, .component]

namespace Store

/- The leaves of a layer. -/
def leaves
    (store : Store)
    (c : Collection) : List Leaf :=
  (store.tree c).leaves

/- The deprecated tokens, semantic layer first. -/
def audit
    (store : Store)
    (namer : Namer) : List DeprecatedToken :=
  Collection.audited.flatMap fun c =>
    (store.leaves c).filterMap (DeprecatedToken.ofLeaf? namer c)

end Store

end DesignTokens
