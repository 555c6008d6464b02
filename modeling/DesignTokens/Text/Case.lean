/-
  This file defines the case folding of names that are matched
  without regard to ASCII case.

  Key definitions include:
    * `Text.lowerAscii`

  Only the letters A to Z change; every other character, also a
  letter outside ASCII, is left as it is.
-/

------------------------------------------------------------
-- ASCII Case
------------------------------------------------------------

namespace DesignTokens

namespace Text

/- Replace the letters A to Z by a to z. -/
def lowerAscii (s : String) : String :=
  String.ofList (s.toList.map Char.toLower)

end Text

end DesignTokens
