/-
  This file defines blank characters, the characters with the
  Unicode property White_Space, and trimming by them.

  Key definitions include:
    * `Text.isBlank`
    * `Text.trim`
    * `Text.IsBlankText`

  Zero-width characters such as U+200B and U+FEFF do not have
  the property and are not blank.
-/

------------------------------------------------------------
-- Blank Characters
------------------------------------------------------------

namespace DesignTokens

namespace Text

/- The characters with the Unicode property White_Space. -/
def isBlank (c : Char) : Bool :=
  let n := c.toNat
  (0x09 ≤ n && n ≤ 0x0D)
    || n == 0x20
    || n == 0x85
    || n == 0xA0
    || n == 0x1680
    || (0x2000 ≤ n && n ≤ 0x200A)
    || n == 0x2028
    || n == 0x2029
    || n == 0x202F
    || n == 0x205F
    || n == 0x3000

end Text

end DesignTokens

------------------------------------------------------------
-- Trimming
------------------------------------------------------------

namespace DesignTokens

namespace Text

/- Drop the blank characters at both ends of a list. -/
def trimChars (cs : List Char) : List Char :=
  ((cs.dropWhile isBlank).reverse.dropWhile isBlank).reverse

/- Drop the blank characters at both ends of a text. -/
def trim (s : String) : String :=
  String.ofList (trimChars s.toList)

/- A text is blank when it holds blank characters only. -/
def IsBlankText (s : String) : Prop :=
  ∀ c ∈ s.toList, isBlank c = true

instance (s : String) : Decidable (IsBlankText s) :=
  decidable_of_decidable_of_iff
    (p := s.toList.all isBlank = true)
    (by simp [IsBlankText])

end Text

end DesignTokens
