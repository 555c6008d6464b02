import DesignTokens.Decimal.Digits

/-
  This file defines the quoted form of texts in JSON.

  Key definitions include:
    * `Json.quote`
    * `Json.takeQuoted?`

  Writing escapes the quote, the backslash and the control
  characters below U+0020, and nothing else.  Reading takes all
  escapes of JSON, and joins two escaped surrogates to the
  character they stand for; a surrogate alone is refused.
-/

------------------------------------------------------------
-- Writing
------------------------------------------------------------

namespace DesignTokens

namespace Json

/- A hexadecimal digit in lower case. -/
def hexDigit (n : Nat) : Char :=
  if n < 10 then
    Char.ofNat ('0'.toNat + n)
  else
    Char.ofNat ('a'.toNat + (n - 10))

/- The letter of the short escape of a character, if it has one. -/
def shortEscape? (c : Char) : Option Char :=
  if c = '"' then some '"'
  else if c = '\\' then some '\\'
  else if c = '\x08' then some 'b'
  else if c = '\x0C' then some 'f'
  else if c = '\n' then some 'n'
  else if c = '\r' then some 'r'
  else if c = '\t' then some 't'
  else none

/- A character as it stands between quotes. -/
def escape (c : Char) : List Char :=
  match shortEscape? c with
  | some letter => ['\\', letter]
  | none =>
      if c.toNat < 0x20 then
        ['\\', 'u', '0', '0',
          hexDigit (c.toNat / 16), hexDigit (c.toNat % 16)]
      else
        [c]

/- The quoted form of a list of characters. -/
def quoteChars (cs : List Char) : List Char :=
  '"' :: (cs.flatMap escape ++ ['"'])

/- The quoted form of a text. -/
def quote (s : String) : List Char :=
  quoteChars s.toList

end Json

end DesignTokens

------------------------------------------------------------
-- Pieces of a Quoted Text
------------------------------------------------------------

namespace DesignTokens

namespace Json

/- A character, or a 16-bit unit written as four digits. -/
inductive Piece where
| char (c : Char)
| unit (n : Nat)
deriving DecidableEq, Repr

/- The character that the letter of a short escape stands for. -/
def ofShortEscape? (letter : Char) : Option Char :=
  if letter = '"' then some '"'
  else if letter = '\\' then some '\\'
  else if letter = '/' then some '/'
  else if letter = 'b' then some '\x08'
  else if letter = 'f' then some '\x0C'
  else if letter = 'n' then some '\n'
  else if letter = 'r' then some '\r'
  else if letter = 't' then some '\t'
  else none

/-
  Take the pieces up to the closing quote.  A raw control
  character and an unknown escape are refused.
-/
def takePieces? : List Char → Option (List Piece × List Char)
| [] => none
| '"' :: rest => some ([], rest)
| '\\' :: 'u' :: a :: b :: c :: d :: rest => do
    let n ← Decimal.ofDigits? 16 [a, b, c, d]
    let (pieces, rest) ← takePieces? rest
    return (.unit n :: pieces, rest)
| '\\' :: letter :: rest => do
    let c ← ofShortEscape? letter
    let (pieces, rest) ← takePieces? rest
    return (.char c :: pieces, rest)
| c :: rest =>
    if c.toNat < 0x20 then
      none
    else do
      let (pieces, rest) ← takePieces? rest
      return (.char c :: pieces, rest)

/- The first half of a surrogate pair. -/
def isHighSurrogate (n : Nat) : Bool :=
  0xD800 ≤ n && n ≤ 0xDBFF

/- The second half of a surrogate pair. -/
def isLowSurrogate (n : Nat) : Bool :=
  0xDC00 ≤ n && n ≤ 0xDFFF

/- The character of a surrogate pair. -/
def ofSurrogates (high low : Nat) : Char :=
  Char.ofNat (0x10000 + (high - 0xD800) * 0x400 + (low - 0xDC00))

/- Join pieces to characters; every surrogate must be paired. -/
def joinPieces? : List Piece → Option (List Char)
| [] => some []
| .char c :: pieces => (joinPieces? pieces).map (c :: ·)
| .unit n :: pieces =>
    if isHighSurrogate n then
      match pieces with
      | .unit m :: pieces =>
          if isLowSurrogate m then
            (joinPieces? pieces).map (ofSurrogates n m :: ·)
          else
            none
      | _ => none
    else if isLowSurrogate n then
      none
    else
      (joinPieces? pieces).map (Char.ofNat n :: ·)

end Json

end DesignTokens

------------------------------------------------------------
-- Reading
------------------------------------------------------------

namespace DesignTokens

namespace Json

/- Take a quoted text whose opening quote has been taken. -/
def takeQuoted?
    (cs : List Char) : Option (String × List Char) := do
  let (pieces, rest) ← takePieces? cs
  let chars ← joinPieces? pieces
  return (String.ofList chars, rest)

end Json

end DesignTokens
