/-
  This file defines powers of two and of ten.

  Key definitions include:
    * `Decimal.twoTo`
    * `Decimal.tenTo`
-/

------------------------------------------------------------
-- Powers
------------------------------------------------------------

namespace DesignTokens

namespace Decimal

/- A power of two. -/
def twoTo (n : Nat) : Nat :=
  Nat.pow 2 n

/- A power of ten. -/
def tenTo (n : Nat) : Nat :=
  Nat.pow 10 n

end Decimal

end DesignTokens
