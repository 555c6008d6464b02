import DesignTokens.Record.Basic
import DesignTokens.Text.Split

/-
  This file defines paths of keys inside a document.

  Key definitions include:
    * `Json.descend?`
    * `dotted`

  A path never passes through a reserved or an empty key, so
  what a record says of itself cannot be addressed.
-/

------------------------------------------------------------
-- Descending
------------------------------------------------------------

namespace DesignTokens

/- Keys that a path may pass through. -/
def IsAddressable (key : String) : Prop :=
  key ≠ "" ∧ ¬ IsReserved key

instance (key : String) : Decidable (IsAddressable key) := by
  unfold IsAddressable
  infer_instance

namespace Json

/- The node at the end of a path of keys. -/
def descend? : List String → Json → Option Json
| [], node => some node
| key :: keys, node =>
    if IsAddressable key then
      match node.get? key with
      | some child => descend? keys child
      | none => none
    else
      none

end Json

/- A path as it is written in references and messages. -/
def dotted (path : List String) : String :=
  Text.join '.' path

end DesignTokens
