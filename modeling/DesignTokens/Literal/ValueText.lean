import DesignTokens.Decimal.Shortest
import DesignTokens.Literal.Basic
import DesignTokens.Record.TokenType
import DesignTokens.Text.Blank

/-
  This file defines the text that a literal is written as for
  the type that its token declares.

  Key definitions include:
    * `Literal.numberText`
    * `Literal.valueText`
    * `FormatError`

  Strings pass through as they are.  Numbers get a unit or a
  scale by their type.  Arrays and objects have no text.
-/

------------------------------------------------------------
-- Numbers
------------------------------------------------------------

namespace DesignTokens

namespace Literal

/-
  Bring an opacity to the scale from zero to one.  A number
  beyond one is a percentage.
-/
def normalizeOpacity (x : Float) : Float :=
  if x.abs > 1.0 then x / 100.0 else x

/- The text of a number of a declared type. -/
def numberText
    (type : TokenType)
    (x : Float) : String :=
  if type.IsPixel then
    Decimal.text x ++ "px"
  else
    match type with
    | .duration => Decimal.text x ++ "ms"
    | .opacity => Decimal.text (normalizeOpacity x)
    | _ => Decimal.text x

end Literal

end DesignTokens

------------------------------------------------------------
-- Literals
------------------------------------------------------------

namespace DesignTokens

/- Why a literal has no text. -/
inductive FormatError where
| composite (kind : Json.Kind)
| empty
deriving DecidableEq, Repr

namespace FormatError

/- The text of the error. -/
def message : FormatError → String
| composite kind =>
    "cannot format " ++ kind.name ++ " value as a single variable"
| empty => "value is empty"

end FormatError

namespace Literal

/- The text of a literal that is not composite. -/
def plainText?
    (type : TokenType) :
    Literal → Option String
| text s => some s
| number x => some (numberText type x)
| boolean true => some "true"
| boolean false => some "false"
| array _ => none
| object _ => none

/-
  The text of a literal for a declared type.  A text of blanks
  only is refused.
-/
def valueText
    (type : TokenType)
    (l : Literal) : Except FormatError String :=
  match l.plainText? type with
  | none => .error (.composite l.kind)
  | some s =>
      if Text.IsBlankText s then .error .empty else .ok s

end Literal

end DesignTokens
