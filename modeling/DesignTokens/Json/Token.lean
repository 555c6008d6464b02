import DesignTokens.Decimal.Numeral
import DesignTokens.Json.Quoted

/-
  This file defines the tokens of JSON texts.

  Key definitions include:
    * `Json.Token`
    * `Json.Token.take?`
    * `Json.Token.ofChars?`

  Between tokens stands JSON white space only: space, tab, line
  feed and carriage return.
-/

------------------------------------------------------------
-- Tokens
------------------------------------------------------------

namespace DesignTokens

namespace Json

/- A bracket, a separator or a value without brackets. -/
inductive Token where
| openArray
| closeArray
| openObject
| closeObject
| comma
| colon
| null
| boolean (b : Bool)
| number (x : Float)
| text (s : String)

namespace Token

/- White space between tokens. -/
def isSpace (c : Char) : Bool :=
  c = ' ' || c = '\t' || c = '\n' || c = '\r'

/- Take a token at the front of a list that starts with one. -/
def take? : List Char → Option (Token × List Char)
| '[' :: rest => some (.openArray, rest)
| ']' :: rest => some (.closeArray, rest)
| '\x7b' :: rest => some (.openObject, rest)
| '\x7d' :: rest => some (.closeObject, rest)
| ',' :: rest => some (.comma, rest)
| ':' :: rest => some (.colon, rest)
| 'n' :: 'u' :: 'l' :: 'l' :: rest => some (.null, rest)
| 't' :: 'r' :: 'u' :: 'e' :: rest => some (.boolean true, rest)
| 'f' :: 'a' :: 'l' :: 's' :: 'e' :: rest =>
    some (.boolean false, rest)
| '"' :: rest => do
    let (s, rest) ← takeQuoted? rest
    return (.text s, rest)
| cs => do
    let (numeral, rest) ← Decimal.Numeral.takeStrict? cs
    let x ← numeral.gathered?
    return (.number x, rest)

/-
  The tokens of a list of characters.  Every token and every
  space takes a character, so the length bounds the steps.
-/
def takeAll? : Nat → List Char → Option (List Token)
| _, [] => some []
| 0, _ :: _ => none
| steps + 1, c :: cs =>
    if isSpace c then
      takeAll? steps cs
    else do
      let (token, rest) ← take? (c :: cs)
      let tokens ← takeAll? steps rest
      return token :: tokens

/- The tokens of a list of characters. -/
def ofChars? (cs : List Char) : Option (List Token) :=
  takeAll? cs.length cs

end Token

end Json

end DesignTokens
