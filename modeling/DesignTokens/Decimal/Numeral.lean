import DesignTokens.Decimal.Digits
import DesignTokens.Decimal.Nearest

/-
  This file defines decimal numerals with a fraction and an
  exponent, and two ways to read a double from one.

  Key definitions include:
    * `Decimal.Numeral`
    * `Decimal.Numeral.nearest`
    * `Decimal.Numeral.gathered?`
    * `Decimal.Numeral.takeStrict?`
    * `Decimal.Numeral.ofLoose?`

  `nearest` rounds once.  `gathered?` is the cheaper reading of
  numbers in documents: it gathers digits into a 64-bit word
  and then scales by one power of ten, so that the last binary
  digit may differ.
-/

------------------------------------------------------------
-- Numerals
------------------------------------------------------------

namespace DesignTokens

namespace Decimal

/- A decimal numeral, its digits as written. -/
structure Numeral where
  negative : Bool
  whole : List Char
  fraction : List Char
  exponent : Int
deriving DecidableEq, Repr

namespace Numeral

/-
  The double nearest to the numeral.  Far outside the range of
  doubles the exponent is not expanded.
-/
def nearest (n : Numeral) : Float :=
  let digits := ofDigits (n.whole ++ n.fraction)
  let power := n.exponent - n.fraction.length
  let top := power + digitCount digits
  let size :=
    if digits = 0 || top < -400 then
      Decimal.nearest 0 1
    else if 400 < top then
      Float.ofBits (UInt64.ofNat infinityBits)
    else if 0 ≤ power then
      Decimal.nearest (digits * tenTo power.toNat) 1
    else
      Decimal.nearest digits (tenTo (-power).toNat)
  signed n.negative size

end Numeral

end Decimal

end DesignTokens

------------------------------------------------------------
-- Gathered Digits
------------------------------------------------------------

namespace DesignTokens

namespace Decimal

namespace Numeral

/- The largest unsigned 64-bit word. -/
def wordLimit : Nat :=
  twoTo 64 - 1

/-
  Append digits to a significand while it fits a 64-bit word.
  Gives the significand and the digits that did not fit.
-/
def gather : Nat → List Char → Nat × List Char
| n, [] => (n, [])
| n, c :: cs =>
    let next := n * 10 + (c.toNat - '0'.toNat)
    if next ≤ wordLimit then
      gather next cs
    else
      (n, c :: cs)

/- A power of ten that is in the range of doubles. -/
def powerOfTen (n : Nat) : Float :=
  Decimal.nearest (tenTo n) 1

/-
  Scale a significand by a power of ten, in one step where the
  power is a double.  A result beyond the doubles is refused.
-/
def scaleBy?
    (significand : Nat)
    (exponent : Int) : Option Float :=
  let x := Decimal.nearest significand 1
  if significand = 0 then
    some x
  else if 308 < exponent then
    none
  else if 0 ≤ exponent then
    let y := x * powerOfTen exponent.toNat
    if y.isInf then none else some y
  else if -308 ≤ exponent then
    some (x / powerOfTen (-exponent).toNat)
  else if -616 ≤ exponent then
    some (x / powerOfTen 308 / powerOfTen (-exponent - 308).toNat)
  else
    some (Decimal.nearest 0 1)

/-
  The double of a numeral whose digits are gathered first.
  Whole digits that do not fit count in the exponent only, and
  fraction digits that do not fit are dropped.
-/
def gathered? (n : Numeral) : Option Float :=
  let whole := gather 0 n.whole
  let part := gather whole.1 n.fraction
  let places : Int := n.fraction.length - part.2.length
  (scaleBy? part.1 (whole.2.length - places + n.exponent)).map
    (signed n.negative)

end Numeral

end Decimal

end DesignTokens

------------------------------------------------------------
-- Grammars
------------------------------------------------------------

namespace DesignTokens

namespace Decimal

namespace Numeral

/- Split off the digits at the front. -/
def takeDigits (cs : List Char) : List Char × List Char :=
  cs.span isDigit

/-
  Take an exponent at the front: an `e` of either case, a sign
  that may be absent, and digits.  Absent is zero; an `e`
  without digits is refused.
-/
def takeExponent? : List Char → Option (Int × List Char)
| [] => some (0, [])
| c :: cs =>
    if c = 'e' || c = 'E' then
      let (negative, rest) :=
        match cs with
        | '-' :: rest => (true, rest)
        | '+' :: rest => (false, rest)
        | rest => (false, rest)
      match takeDigits rest with
      | ([], _) => none
      | (ds, rest) =>
          let size : Int := ofDigits ds
          some (if negative then -size else size, rest)
    else
      some (0, c :: cs)

/-
  Take a fraction at the front: a point and digits.  Absent is
  the empty fraction; `required` refuses a point without digits.
-/
def takeFraction?
    (required : Bool) :
    List Char → Option (List Char × List Char)
| '.' :: cs =>
    match takeDigits cs with
    | ([], rest) => if required then none else some ([], rest)
    | (ds, rest) => some (ds, rest)
| cs => some ([], cs)

/-
  Take a strict numeral at the front: a minus sign that may be
  absent, a whole part without leading zeros, a fraction with
  digits, and an exponent.
-/
def takeStrict?
    (cs : List Char) : Option (Numeral × List Char) := do
  let (negative, rest) :=
    match cs with
    | '-' :: rest => (true, rest)
    | rest => (false, rest)
  let (whole, rest) ←
    match rest with
    | '0' :: rest => some (['0'], rest)
    | rest =>
        match takeDigits rest with
        | ([], _) => none
        | (ds, rest) => some (ds, rest)
  let (fraction, rest) ← takeFraction? true rest
  let (exponent, rest) ← takeExponent? rest
  return (⟨negative, whole, fraction, exponent⟩, rest)

/-
  Read a whole text as a loose numeral: either sign, digits on
  at least one side of the point, and an exponent.
-/
def ofLoose? (cs : List Char) : Option Numeral := do
  let (negative, rest) :=
    match cs with
    | '-' :: rest => (true, rest)
    | '+' :: rest => (false, rest)
    | rest => (false, rest)
  let (whole, rest) := takeDigits rest
  let (fraction, rest) ← takeFraction? false rest
  if whole.isEmpty && fraction.isEmpty then
    none
  else
    let (exponent, rest) ← takeExponent? rest
    if rest.isEmpty then
      return ⟨negative, whole, fraction, exponent⟩
    else
      none

end Numeral

end Decimal

end DesignTokens
