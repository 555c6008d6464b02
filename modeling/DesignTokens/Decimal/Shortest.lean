import DesignTokens.Decimal.Digits
import DesignTokens.Decimal.Nearest

/-
  This file defines the shortest decimal that rounds to a given
  double, and its positional text.

  Key definitions include:
    * `Decimal.Span`
    * `Decimal.shortest`
    * `Decimal.text`

  The decimals that round to a double form an interval around
  it.  The shortest of them lie on the coarsest decimal grid
  that meets the interval, and the nearest point of that grid
  is one of the two neighbours of the double.
-/

------------------------------------------------------------
-- The Decimals that Round to a Double
------------------------------------------------------------

namespace DesignTokens

namespace Decimal

/-
  A point and the interval around it, as numerators over one
  denominator.  The ends belong to the interval when `closed`.
-/
structure Span where
  low : Nat
  point : Nat
  high : Nat
  den : Nat
  closed : Bool
deriving DecidableEq, Repr

namespace Span

/-
  The reals that round to a double.  They reach half way to its
  neighbours, and the ends round to it when its significand is
  even.
-/
def ofBinary (b : Binary) : Span :=
  let scale := twoTo b.exponent
  let below := if b.AtPowerOfTwo then 1 else 2
  { low := (4 * b.significand - below) * scale
    point := 4 * b.significand * scale
    high := (4 * b.significand + 2) * scale
    den := 4 * unitsInOne
    closed := b.significand % 2 = 0 }

/- Multiply every point by a ratio. -/
def scale
    (num den : Nat)
    (s : Span) : Span :=
  { s with
    low := s.low * num
    point := s.point * num
    high := s.high * num
    den := s.den * den }

/- A whole number lies in the interval. -/
def holds
    (s : Span)
    (n : Nat) : Bool :=
  if s.closed then
    s.low ≤ n * s.den && n * s.den ≤ s.high
  else
    s.low < n * s.den && n * s.den < s.high

/-
  The whole number in the interval that is nearest to the
  point, the larger one if two are equally near.
-/
def nearestWhole? (s : Span) : Option Nat :=
  let n := s.point / s.den
  let r := s.point % s.den
  match s.holds n, s.holds (n + 1) with
  | true, true => some (if 2 * r < s.den then n else n + 1)
  | true, false => some n
  | false, true => some (n + 1)
  | false, false => none

/-
  The exponent of ten at the leading digit of the point, which
  is not zero.
-/
def magnitude (s : Span) : Int :=
  if s.den ≤ s.point then
    (digitCount (s.point / s.den) : Int) - 1
  else
    -(digitCount ((s.den - 1) / s.point) : Int)

end Span

end Decimal

end DesignTokens

------------------------------------------------------------
-- The Shortest Decimal
------------------------------------------------------------

namespace DesignTokens

namespace Decimal

/- The number `digits * 10 ^ exponent`. -/
structure Scaled where
  digits : Nat
  exponent : Int
deriving DecidableEq, Repr

/- The point of the grid of step `10 ^ k` to write, if any. -/
def onGrid?
    (s : Span)
    (k : Int) : Option Scaled :=
  ((s.scale (tenTo (-k).toNat) (tenTo k.toNat)).nearestWhole?).map
    (⟨·, k⟩)

/-
  The shortest decimal that rounds to a positive double.  One
  digit more than the point has is the coarsest grid that can
  meet the interval, and seventeen digits always do.
-/
def shortest (b : Binary) : Scaled :=
  let s := Span.ofBinary b
  let top := s.magnitude + 1
  ((List.range 19).findSome?
    (fun i : Nat => onGrid? s (top - (i : Int)))).getD ⟨0, 0⟩

/- Digits written with a decimal point and without exponent. -/
def Scaled.positional (d : Scaled) : List Char :=
  let ds := toDigits d.digits
  if 0 ≤ d.exponent then
    ds ++ List.replicate d.exponent.toNat '0'
  else
    let places := (-d.exponent).toNat
    let padded := List.replicate (places + 1 - ds.length) '0' ++ ds
    let whole := padded.length - places
    padded.take whole ++ '.' :: padded.drop whole

end Decimal

end DesignTokens

------------------------------------------------------------
-- The Text of a Double
------------------------------------------------------------

namespace DesignTokens

namespace Decimal

/-
  The text of a double: the shortest digits that read back,
  never an exponent and no fraction for a whole number.  Zero
  keeps its sign.
-/
def textChars (x : Float) : List Char :=
  if x.isNaN then
    "NaN".toList
  else
    let sign := if hasSign x then ['-'] else []
    match Binary.ofFloat? x with
    | none => sign ++ "inf".toList
    | some b =>
        if b.significand = 0 then
          sign ++ ['0']
        else
          sign ++ (shortest b).positional

/- The text of a double. -/
def text (x : Float) : String :=
  String.ofList (textChars x)

end Decimal

end DesignTokens
