import DesignTokens.Json.Basic

/-
  This file defines deprecation notices of tokens.

  Key definitions include:
    * `Deprecation`
    * `Deprecation.Notice`
    * `Deprecation.ofExtensions?`

  A notice stands under the key `deprecation` of a token's
  extensions, or directly among the extensions when there is no
  such key.
-/

------------------------------------------------------------
-- Notices
------------------------------------------------------------

namespace DesignTokens

/- A token is deprecated, with a replacement as authored. -/
structure Deprecation where
  replacedBy : Option String
deriving DecidableEq, Repr

namespace Deprecation

/- A notice as written: it may also deny the deprecation. -/
structure Notice where
  deprecated : Bool
  replacedBy : Option String
deriving DecidableEq, Repr

namespace Notice

/- Read the flag of a notice; absent means false. -/
def flag? : Option Json → Option Bool
| none => some false
| some (.boolean b) => some b
| some _ => none

/- Read the replacement of a notice; it may be absent or null. -/
def replacement? : Option Json → Option (Option String)
| none => some none
| some .null => some none
| some (.text s) => some (some s)
| some _ => none

/-
  Read a notice from an object with the two fields, or from an
  array that gives them by position.  Other members of an
  object do not matter; a third item is refused.
-/
def ofJson? : Json → Option Notice
| .object ms => do
    let deprecated ← flag? (ms.lookup "deprecated")
    let replacedBy ← replacement? (ms.lookup "replacedBy")
    return ⟨deprecated, replacedBy⟩
| .array items =>
    if items.length ≤ 2 then do
      let deprecated ← flag? items[0]?
      let replacedBy ← replacement? items[1]?
      return ⟨deprecated, replacedBy⟩
    else
      none
| _ => none

end Notice

/- Where the notice of some extensions stands. -/
def noticeOf (extensions : Json) : Json :=
  (extensions.get? "deprecation").getD extensions

/-
  Read the deprecation from extensions.  A notice that cannot
  be read counts as none.
-/
def ofExtensions? (extensions : Json) : Option Deprecation :=
  match Notice.ofJson? (noticeOf extensions) with
  | some notice =>
      if notice.deprecated then some ⟨notice.replacedBy⟩ else none
  | none => none

end Deprecation

end DesignTokens
