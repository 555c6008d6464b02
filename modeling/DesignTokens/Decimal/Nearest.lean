import DesignTokens.Decimal.Power

/-
  This file defines the double nearest to a ratio of natural
  numbers, and the exact value of a double.

  Key definitions include:
    * `Decimal.roundDiv`
    * `Decimal.nearest`
    * `Decimal.Binary`
    * `Decimal.Binary.ofFloat?`

  All arithmetic is on natural numbers.  A double is a whole
  number of units of `2 ^ -1074`, the smallest positive double,
  so scaling by `2 ^ 1074` makes every exponent nonnegative.
-/

------------------------------------------------------------
-- Rounded Quotients
------------------------------------------------------------

namespace DesignTokens

namespace Decimal

/- The quotient rounded to nearest, a half to the even side. -/
def roundDiv
    (num den : Nat) : Nat :=
  let q := num / den
  let r := num % den
  if 2 * r < den then
    q
  else if den < 2 * r then
    q + 1
  else
    q + q % 2

end Decimal

end DesignTokens

------------------------------------------------------------
-- Rounding to a Double
------------------------------------------------------------

namespace DesignTokens

namespace Decimal

/- The number of units of the smallest double in one. -/
def unitsInOne : Nat :=
  twoTo 1074

/- The bits of positive infinity. -/
def infinityBits : Nat :=
  0x7FF0000000000000

/-
  The bits of the double nearest to `num / den`, a half to the
  even side.  With `e` chosen so that the significand has 53
  binary digits, or zero below the normal range, the bits are
  `e * 2 ^ 52` plus the significand: the leading digit of the
  significand carries into the exponent.
-/
def nearestBits
    (num den : Nat) : Nat :=
  let units := num * unitsInOne
  let e := Nat.log2 (units / den) - 52
  let significand := roundDiv units (den * twoTo e)
  min (e * twoTo 52 + significand) infinityBits

/- The double nearest to `num / den`. -/
def nearest
    (num den : Nat) : Float :=
  Float.ofBits (UInt64.ofNat (nearestBits num den))

/- Negate a number that is given with its sign apart. -/
def signed
    (negative : Bool)
    (x : Float) : Float :=
  if negative then -x else x

end Decimal

end DesignTokens

------------------------------------------------------------
-- The Exact Value of a Double
------------------------------------------------------------

namespace DesignTokens

namespace Decimal

/-
  A finite double without its sign: `significand * 2 ^ exponent`
  units of the smallest double.
-/
structure Binary where
  significand : Nat
  exponent : Nat
deriving DecidableEq, Repr

namespace Binary

/- The exact value of a finite double, without its sign. -/
def ofFloat? (x : Float) : Option Binary :=
  let bits := x.toBits.toNat
  let fraction := bits % twoTo 52
  let e := bits / twoTo 52 % twoTo 11
  if e = 2047 then
    none
  else if e = 0 then
    some ⟨fraction, 0⟩
  else
    some ⟨twoTo 52 + fraction, e - 1⟩

/- Half the distance to the next smaller double is shorter. -/
def AtPowerOfTwo (b : Binary) : Prop :=
  b.significand = twoTo 52 ∧ b.exponent ≠ 0

instance (b : Binary) : Decidable b.AtPowerOfTwo := by
  unfold AtPowerOfTwo
  infer_instance

end Binary

/- Whether the sign bit of a double is set. -/
def hasSign (x : Float) : Bool :=
  x.toBits.toNat / twoTo 63 = 1

end Decimal

end DesignTokens
