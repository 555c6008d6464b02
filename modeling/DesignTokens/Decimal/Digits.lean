/-
  This file defines reading and writing natural numbers as
  runs of digits.

  Key definitions include:
    * `Decimal.isDigit`
    * `Decimal.digitValue?`
    * `Decimal.ofDigits?`
    * `Decimal.toDigits`

  Reading takes a base of at most sixteen, with letters of
  either case above nine.  Writing is decimal.
-/

------------------------------------------------------------
-- Single Digits
------------------------------------------------------------

namespace DesignTokens

namespace Decimal

/- The ASCII digits `0` to `9`. -/
def isDigit (c : Char) : Bool :=
  '0' ≤ c && c ≤ '9'

/- The value of a hexadecimal digit of either case. -/
def hexValue? (c : Char) : Option Nat :=
  if '0' ≤ c && c ≤ '9' then
    some (c.toNat - '0'.toNat)
  else if 'a' ≤ c && c ≤ 'f' then
    some (c.toNat - 'a'.toNat + 10)
  else if 'A' ≤ c && c ≤ 'F' then
    some (c.toNat - 'A'.toNat + 10)
  else
    none

/- The value of a digit of the given base. -/
def digitValue?
    (base : Nat)
    (c : Char) : Option Nat :=
  (hexValue? c).filter (· < base)

end Decimal

end DesignTokens

------------------------------------------------------------
-- Runs of Digits
------------------------------------------------------------

namespace DesignTokens

namespace Decimal

/- Read digits after those that gave the value `n`. -/
def appendDigits?
    (base : Nat) :
    Nat → List Char → Option Nat
| n, [] => some n
| n, c :: cs =>
    match digitValue? base c with
    | none => none
    | some d => appendDigits? base (n * base + d) cs

/- Read a run of one or more digits. -/
def ofDigits?
    (base : Nat) :
    List Char → Option Nat
| [] => none
| c :: cs => appendDigits? base 0 (c :: cs)

/- Read a run of decimal digits; other characters count zero. -/
def ofDigits (cs : List Char) : Nat :=
  cs.foldl (fun n c => n * 10 + (c.toNat - '0'.toNat)) 0

/- The decimal digits of a number, without leading zeros. -/
def toDigits (n : Nat) : List Char :=
  Nat.toDigits 10 n

/- How many decimal digits a number has. -/
def digitCount (n : Nat) : Nat :=
  (toDigits n).length

end Decimal

end DesignTokens
