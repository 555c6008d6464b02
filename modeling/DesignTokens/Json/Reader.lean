import DesignTokens.Json.Basic
import DesignTokens.Json.Token

/-
  This file defines reading a JSON value from a text.

  Key definitions include:
    * `Json.Stage`
    * `Json.Stage.step?`
    * `Json.read?`

  Reading is one pass over the tokens with a stack of the
  arrays and objects that are open.  The stack may hold 127 of
  them; deeper nesting is refused.  A key that an object
  repeats is read as often as it is written.
-/

------------------------------------------------------------
-- Stages of Reading
------------------------------------------------------------

namespace DesignTokens

namespace Json

/-
  An array or object that is open, with the items or members
  before the one being read, the latest first.
-/
inductive Frame where
| array (before : List Json)
| object (before : List (String × Json)) (key : String)

/- What has been read, and so what may follow. -/
inductive Stage where
/- A value must follow. -/
| value (outer : List Frame)
/- An array was opened: a value or the closing bracket follows. -/
| firstItem (outer : List Frame)
/- An object was opened: a key or the closing brace follows. -/
| firstKey (outer : List Frame)
/- A comma was read in an object: a key must follow. -/
| nextKey (outer : List Frame) (before : List (String × Json))
/- A key was read: a colon must follow. -/
| colon
    (outer : List Frame)
    (before : List (String × Json))
    (key : String)
/- A value is complete. -/
| complete (outer : List Frame) (j : Json)

/- How many arrays and objects may be open at once. -/
def maxNesting : Nat :=
  127

namespace Stage

/- Read the first token of a value. -/
def startValue?
    (outer : List Frame) :
    Token → Option Stage
| .null => some (.complete outer .null)
| .boolean b => some (.complete outer (.boolean b))
| .number x => some (.complete outer (.number x))
| .text s => some (.complete outer (.text s))
| .openArray =>
    if outer.length < maxNesting then some (.firstItem outer) else none
| .openObject =>
    if outer.length < maxNesting then some (.firstKey outer) else none
| _ => none

/- Read a token after a complete value. -/
def afterValue?
    (j : Json) :
    List Frame → Token → Option Stage
| .array before :: outer, .comma =>
    some (.value (.array (j :: before) :: outer))
| .array before :: outer, .closeArray =>
    some (.complete outer (.array (j :: before).reverse))
| .object before key :: outer, .comma =>
    some (.nextKey outer ((key, j) :: before))
| .object before key :: outer, .closeObject =>
    some (.complete outer (.object ((key, j) :: before).reverse))
| _, _ => none

/- Read one token. -/
def step? : Stage → Token → Option Stage
| .value outer, token => startValue? outer token
| .firstItem outer, .closeArray => some (.complete outer (.array []))
| .firstItem outer, token =>
    startValue? (.array [] :: outer) token
| .firstKey outer, .closeObject =>
    some (.complete outer (.object []))
| .firstKey outer, .text key => some (.colon outer [] key)
| .nextKey outer before, .text key => some (.colon outer before key)
| .colon outer before key, .colon =>
    some (.value (.object before key :: outer))
| .complete outer j, token => afterValue? j outer token
| _, _ => none

/- The value that has been read when no token is left. -/
def result? : Stage → Option Json
| .complete [] j => some j
| _ => none

/- Read the tokens that are left. -/
def run? : Stage → List Token → Option Json
| stage, [] => stage.result?
| stage, token :: tokens =>
    match stage.step? token with
    | none => none
    | some stage => run? stage tokens

end Stage

end Json

end DesignTokens

------------------------------------------------------------
-- Reading a Text
------------------------------------------------------------

namespace DesignTokens

namespace Json

/- The value of a list of characters, as it is written. -/
def readChars? (cs : List Char) : Option Json := do
  let tokens ← Token.ofChars? cs
  Stage.run? (.value []) tokens

/- The value of a text, as it is written. -/
def read? (s : String) : Option Json :=
  readChars? s.toList

end Json

end DesignTokens
