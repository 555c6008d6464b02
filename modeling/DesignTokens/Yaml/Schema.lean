import DesignTokens.Decimal.Numeral

/-
  This file defines what plain scalars of YAML stand for.

  Key definitions include:
    * `Yaml.Plain`
    * `Yaml.Plain.ofText`

  A plain scalar is null, a boolean, an integer, a float or a
  string, whichever fits first.
-/

------------------------------------------------------------
-- Words
------------------------------------------------------------

namespace DesignTokens

namespace Yaml

/- The words for null. -/
def isNullWord (s : String) : Bool :=
  s = "null" || s = "Null" || s = "NULL" || s = "~"

/- The boolean of a word. -/
def booleanOfWord? (s : String) : Option Bool :=
  if s = "true" || s = "True" || s = "TRUE" then some true
  else if s = "false" || s = "False" || s = "FALSE" then some false
  else none

end Yaml

end DesignTokens

------------------------------------------------------------
-- Integers
------------------------------------------------------------

namespace DesignTokens

namespace Yaml

/-
  Digits with a leading zero, after a sign that may be absent.
  They are a string and no number.
-/
def isZeroPadded (cs : List Char) : Bool :=
  let digits :=
    match cs with
    | '-' :: rest => rest
    | '+' :: rest => rest
    | rest => rest
  match digits with
  | '0' :: d :: ds => (d :: ds).all Decimal.isDigit
  | _ => false

/- Read digits after a mark for their base; decimal has none. -/
def ofBasedDigits? : List Char → Option Nat
| '0' :: 'x' :: ds => Decimal.ofDigits? 16 ds
| '0' :: 'o' :: ds => Decimal.ofDigits? 8 ds
| '0' :: 'b' :: ds => Decimal.ofDigits? 2 ds
| ds => Decimal.ofDigits? 10 ds

/- Read an integer without limits, with a sign that may be absent. -/
def ofInteger? (cs : List Char) : Option Int :=
  if isZeroPadded cs then
    none
  else
    match cs with
    | '-' :: ds => (ofBasedDigits? ds).map fun n => -(n : Int)
    | '+' :: ds => (ofBasedDigits? ds).map fun n => (n : Int)
    | ds => (ofBasedDigits? ds).map fun n => (n : Int)

/- Read an unsigned 64-bit integer; a plus sign may stand first. -/
def ofUnsigned? (cs : List Char) : Option Nat :=
  match cs with
  | '-' :: _ => none
  | _ =>
      match ofInteger? cs with
      | some n => if n < Decimal.twoTo 64 then some n.toNat else none
      | none => none

/- The integer fits a signed or unsigned word of 64 bits. -/
def fits64 (n : Int) : Bool :=
  -(Decimal.twoTo 63 : Int) ≤ n && n < Decimal.twoTo 64

/- The integer fits a signed or unsigned word of 128 bits. -/
def fits128 (n : Int) : Bool :=
  -(Decimal.twoTo 127 : Int) ≤ n && n < Decimal.twoTo 128

end Yaml

end DesignTokens

------------------------------------------------------------
-- Floats
------------------------------------------------------------

namespace DesignTokens

namespace Yaml

/- Read a numeral; one that rounds to infinity is refused. -/
def ofNumeral? (cs : List Char) : Option Float :=
  match Decimal.Numeral.ofLoose? cs with
  | none => none
  | some numeral =>
      let x := numeral.nearest
      if x.isInf then none else some x

/- Read a float: infinity, a nan, or a numeral. -/
def ofFloat? (cs : List Char) : Option Float :=
  let s := String.ofList cs
  let infinity := 1.0 / 0.0
  if s = ".inf" || s = ".Inf" || s = ".INF"
      || s = "+.inf" || s = "+.Inf" || s = "+.INF" then
    some infinity
  else if s = "-.inf" || s = "-.Inf" || s = "-.INF" then
    some (-infinity)
  else if s = ".nan" || s = ".NaN" || s = ".NAN" then
    some (0.0 / 0.0)
  else
    ofNumeral? cs

end Yaml

end DesignTokens

------------------------------------------------------------
-- Plain Scalars
------------------------------------------------------------

namespace DesignTokens

namespace Yaml

/- What a plain scalar stands for. -/
inductive Plain where
| null
| boolean (b : Bool)
| integer (n : Int)
| float (x : Float)
| string (s : String)

namespace Plain

/-
  The meaning of a plain scalar.  An integer beyond 128 bits is
  read as a float.
-/
def ofText (s : String) : Plain :=
  let cs := s.toList
  if s = "" || isNullWord s then
    .null
  else
    match booleanOfWord? s with
    | some b => .boolean b
    | none =>
        match (ofInteger? cs).filter fits128 with
        | some n => .integer n
        | none =>
            if isZeroPadded cs then
              .string s
            else
              match ofFloat? cs with
              | some x => .float x
              | none => .string s

end Plain

end Yaml

end DesignTokens
