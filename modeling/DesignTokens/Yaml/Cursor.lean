import DesignTokens.Decimal.Digits

/-
  This file defines the characters of YAML texts and a cursor
  that moves through a text.

  Key definitions include:
    * `Yaml.isAllowed`
    * `Yaml.isBlank`
    * `Yaml.isBreak`
    * `Yaml.Cursor`

  A cursor counts the bytes, lines and columns that it has
  passed: a character is one column wide, however many bytes it
  has.  A carriage return and the line feed after it are one line
  break.
-/

------------------------------------------------------------
-- Characters
------------------------------------------------------------

namespace DesignTokens

namespace Yaml

/- Characters that may stand in a text at all. -/
def isAllowed (c : Char) : Bool :=
  let n := c.toNat
  n = 0x09 || n = 0x0A || n = 0x0D
    || (0x20 ≤ n && n ≤ 0x7E)
    || n = 0x85
    || (0xA0 ≤ n && n ≤ 0xD7FF)
    || (0xE000 ≤ n && n ≤ 0xFFFD)
    || 0x10000 ≤ n

/- Characters that part words on a line. -/
def isBlank (c : Char) : Bool :=
  c = ' ' || c = '\t'

/- Characters that end a line. -/
def isBreak (c : Char) : Bool :=
  c = '\r' || c = '\n' || c = '\u0085'
    || c = '\u2028' || c = '\u2029'

/- Characters of names: letters, digits, hyphen, underscore. -/
def isWordChar (c : Char) : Bool :=
  Decimal.isDigit c
    || ('a' ≤ c && c ≤ 'z')
    || ('A' ≤ c && c ≤ 'Z')
    || c = '-' || c = '_'

/- The list starts with a blank or a line break, or is empty. -/
def startsBlank : List Char → Bool
| [] => true
| c :: _ => isBlank c || isBreak c

/- The list starts with a line break, or is empty. -/
def startsBreak : List Char → Bool
| [] => true
| c :: _ => isBreak c

/- The list starts with a mark that begins or ends a document. -/
def startsMark : List Char → Bool
| '-' :: '-' :: '-' :: rest => startsBlank rest
| '.' :: '.' :: '.' :: rest => startsBlank rest
| _ => false

end Yaml

end DesignTokens

------------------------------------------------------------
-- Cursors
------------------------------------------------------------

namespace DesignTokens

namespace Yaml

/- How many bytes some characters take. -/
def byteCount : List Char → Nat
| [] => 0
| c :: cs => c.utf8Size + byteCount cs

/- A position in a text: what is left and what was passed. -/
structure Cursor where
  rest : List Char
  offset : Nat
  line : Nat
  column : Nat

namespace Cursor

/- The position at the front of a text. -/
def start (cs : List Char) : Cursor :=
  ⟨cs, 0, 0, 0⟩

/- Pass characters of a line. -/
def skip
    (cur : Cursor)
    (n : Nat) : Cursor :=
  { cur with
    rest := cur.rest.drop n
    offset := cur.offset + byteCount (cur.rest.take n)
    column := cur.column + n }

/- Pass the characters of a line up to a rest of the text. -/
def skipTo
    (cur : Cursor)
    (rest : List Char) : Cursor :=
  cur.skip (cur.rest.length - rest.length)

/- Pass the characters of a line that satisfy a condition. -/
def skipWhile
    (cur : Cursor)
    (p : Char → Bool) : Cursor :=
  cur.skip (cur.rest.takeWhile p).length

/-
  Pass one line break.  It reads as a line feed, except that the
  two Unicode separators read as themselves.
-/
def takeBreak (cur : Cursor) : List Char × Cursor :=
  let next (passed rest : List Char) : Cursor :=
    ⟨rest, cur.offset + byteCount passed, cur.line + 1, 0⟩
  match cur.rest with
  | '\r' :: '\n' :: rest => (['\n'], next ['\r', '\n'] rest)
  | '\u2028' :: rest => (['\u2028'], next ['\u2028'] rest)
  | '\u2029' :: rest => (['\u2029'], next ['\u2029'] rest)
  | c :: rest =>
      if isBreak c then (['\n'], next [c] rest) else ([], cur)
  | [] => ([], cur)

/- Pass a comment, if there is one, up to the end of its line. -/
def skipComment (cur : Cursor) : Cursor :=
  match cur.rest with
  | '#' :: _ => cur.skipWhile (fun c => !isBreak c)
  | _ => cur

/- A mark that begins or ends a document stands at the cursor. -/
def atMark (cur : Cursor) : Bool :=
  cur.column = 0 && startsMark cur.rest

/-
  Pass blanks and a comment, and the line break after them; a
  line with anything else is refused.
-/
def endLine? (cur : Cursor) : Option Cursor :=
  let cur := (cur.skipWhile isBlank).skipComment
  if startsBreak cur.rest then some cur.takeBreak.2 else none

end Cursor

end Yaml

end DesignTokens
