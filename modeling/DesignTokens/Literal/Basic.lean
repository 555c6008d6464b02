import DesignTokens.Json.Basic

/-
  This file defines literals, the values at which references
  end.

  Key definitions include:
    * `Literal`
    * `Literal.ofJson?`
    * `Literal.toJson`

  Every JSON value but null is a literal.
-/

------------------------------------------------------------
-- Literals
------------------------------------------------------------

namespace DesignTokens

/- A value that is not followed any further. -/
inductive Literal where
| text (s : String)
| number (x : Float)
| boolean (b : Bool)
| array (items : List Json)
| object (members : List (String × Json))

namespace Literal

/- The literal form of a value; null has none. -/
def ofJson? : Json → Option Literal
| .null => none
| .boolean b => some (.boolean b)
| .number x => some (.number x)
| .text s => some (.text s)
| .array items => some (.array items)
| .object ms => some (.object ms)

/- The value that a literal is the form of. -/
def toJson : Literal → Json
| text s => .text s
| number x => .number x
| boolean b => .boolean b
| array items => .array items
| object ms => .object ms

/- A literal is the form of one value. -/
theorem ofJson?_eq_some_iff
    (j : Json)
    (l : Literal) :
    ofJson? j = some l ↔ l.toJson = j := by
  cases j <;> cases l <;> simp [ofJson?, toJson, eq_comm]

/- The shape of a literal. -/
def kind (l : Literal) : Json.Kind :=
  l.toJson.kind

end Literal

end DesignTokens
