import DesignTokens.Decimal.Shortest
import DesignTokens.Json.Basic
import DesignTokens.Json.Quoted

/-
  This file defines the texts of JSON values.

  Key definitions include:
    * `Json.Layout`
    * `Json.print`
    * `Json.compact`
    * `Json.indented`

  The compact layout has no white space.  The indented layout
  gives every item and member a line of its own, two spaces
  deeper than the brackets around it; empty arrays and objects
  stay on one line in both.
-/

------------------------------------------------------------
-- Layouts
------------------------------------------------------------

namespace DesignTokens

namespace Json

/- Where line ends and spaces go. -/
inductive Layout where
| compact
| indented
deriving DecidableEq, Repr

namespace Layout

/- What stands before an item at the given depth. -/
def lineStart
    (layout : Layout)
    (depth : Nat) : List Char :=
  match layout with
  | .compact => []
  | .indented => '\n' :: List.replicate (2 * depth) ' '

/- What stands between a key and its value. -/
def afterKey : Layout → List Char
| .compact => [':']
| .indented => [':', ' ']

end Layout

end Json

end DesignTokens

------------------------------------------------------------
-- Printing
------------------------------------------------------------

namespace DesignTokens

namespace Json

mutual

/- The characters of a value whose brackets are at a depth. -/
def print
    (layout : Layout)
    (depth : Nat) :
    Json → List Char
| null => "null".toList
| boolean true => "true".toList
| boolean false => "false".toList
| number x => Decimal.textChars x
| text s => quote s
| array [] => ['[', ']']
| array (j :: js) =>
    '[' :: printItems layout (depth + 1) (j :: js)
      ++ layout.lineStart depth ++ [']']
| object [] => ['\x7b', '\x7d']
| object (m :: ms) =>
    '\x7b' :: printMembers layout (depth + 1) (m :: ms)
      ++ layout.lineStart depth ++ ['\x7d']

/- The characters of items, with commas between them. -/
def printItems
    (layout : Layout)
    (depth : Nat) :
    List Json → List Char
| [] => []
| [j] => layout.lineStart depth ++ print layout depth j
| j :: js =>
    layout.lineStart depth ++ print layout depth j
      ++ ',' :: printItems layout depth js

/- The characters of members, with commas between them. -/
def printMembers
    (layout : Layout)
    (depth : Nat) :
    List (String × Json) → List Char
| [] => []
| [(key, j)] =>
    layout.lineStart depth ++ quote key ++ layout.afterKey
      ++ print layout depth j
| (key, j) :: ms =>
    layout.lineStart depth ++ quote key ++ layout.afterKey
      ++ print layout depth j
      ++ ',' :: printMembers layout depth ms

end

/- The text of a value without white space. -/
def compact (j : Json) : String :=
  String.ofList (print .compact 0 j)

/- The text of a value with a line for every item. -/
def indented (j : Json) : String :=
  String.ofList (print .indented 0 j)

end Json

end DesignTokens
