import DesignTokens.Collection

/-
  This file defines the scope of a value, which decides where
  its references are searched.

  Key definitions include:
    * `Scope`
    * `Scope.searchOrder`
-/

------------------------------------------------------------
-- Scopes
------------------------------------------------------------

namespace DesignTokens

/- The layer of a value, and the hint in force for it. -/
structure Scope where
  layer : Collection
  hint : Option Collection
deriving DecidableEq, Repr

namespace Scope

/- The layers in the order in which upper layers search them. -/
def fallback : List Collection :=
  [.semantic, .primitives, .component]

/-
  The layers to search, in order.  A hint goes first and then
  opens all layers.  Without one, a layer sees itself and the
  layers below, and the component layer sees semantic tokens
  first.
-/
def searchOrder (scope : Scope) : List Collection :=
  match scope.hint with
  | some hint => hint :: fallback.filter (· ≠ hint)
  | none =>
      match scope.layer with
      | .primitives => [.primitives]
      | .semantic => [.semantic, .primitives]
      | .component => fallback

end Scope

end DesignTokens
