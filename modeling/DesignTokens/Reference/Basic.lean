import DesignTokens.Json.Basic
import DesignTokens.Text.Blank
import DesignTokens.Text.Split

/-
  This file defines references, the texts by which a token
  points at another one.

  Key definitions include:
    * `Reference`
    * `Reference.parse?`
    * `Reference.readings`

  A reference is a path in braces.  Every other text stands for
  itself.
-/

------------------------------------------------------------
-- References
------------------------------------------------------------

namespace DesignTokens

/- A pointer to another token, by the path between the braces. -/
structure Reference where
  path : String
deriving DecidableEq, Repr

namespace Reference

/- Characters that may stand in a path. -/
def isPathChar (c : Char) : Bool :=
  c ≠ '\x7b' && c ≠ '\x7d' && !Text.isBlank c

/- The characters before a closing brace that ends a list. -/
def body? : List Char → Option (List Char)
| [] => none
| ['\x7d'] => some []
| c :: cs => (body? cs).map (c :: ·)

/-
  Read a reference: an opening brace, one or more characters
  that may stand in a path, and a closing brace at the end.
-/
def parse? (text : String) : Option Reference :=
  match text.toList with
  | '\x7b' :: cs =>
      match body? cs with
      | some path =>
          if path ≠ [] ∧ path.all isPathChar then
            some ⟨String.ofList path⟩
          else
            none
      | none => none
  | _ => none

/- Read a reference from a value; only a string can be one. -/
def ofJson? : Json → Option Reference
| .text s => parse? s
| _ => none

/- A reference as it is written, with its braces. -/
def text (r : Reference) : String :=
  "\x7b" ++ r.path ++ "\x7d"

end Reference

end DesignTokens

------------------------------------------------------------
-- Readings
------------------------------------------------------------

namespace DesignTokens

namespace Reference

/- The path read as keys divided by dots. -/
def dottedReading (r : Reference) : List String :=
  Text.split '.' r.path

/- The path read as keys divided by hyphens. -/
def hyphenatedReading (r : Reference) : List String :=
  Text.split '-' r.path

/-
  The paths of keys that a reference may mean, in the order in
  which they are tried.  Two equal readings count once.
-/
def readings (r : Reference) : List (List String) :=
  if r.hyphenatedReading = r.dottedReading then
    [r.dottedReading]
  else
    [r.dottedReading, r.hyphenatedReading]

end Reference

end DesignTokens
