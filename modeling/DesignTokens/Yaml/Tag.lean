import DesignTokens.Yaml.Cursor

/-
  This file defines the tags of YAML texts.

  Key definitions include:
    * `Yaml.Tag`
    * `Yaml.Tag.ownName?`
    * `Yaml.takeTagBytes?`
    * `Yaml.takeTag?`
    * `Yaml.takeTagHandle?`

  A tag is written in ASCII characters and in escapes, a percent
  sign and two digits for a byte.  Escapes come in groups of the
  shape of one character each, but a group may have that shape
  and still be no character.  So a tag is a list of bytes, and
  only some tags can be read as texts.
-/

------------------------------------------------------------
-- Tags
------------------------------------------------------------

namespace DesignTokens

namespace Yaml

/- The bytes of a tag, or of a part of one. -/
structure Tag where
  bytes : List UInt8
deriving DecidableEq, Repr

namespace Tag

/- The bytes up to the first zero, which ends a part of a tag. -/
def ofBytes (bytes : List UInt8) : Tag :=
  ⟨bytes.takeWhile (· ≠ 0)⟩

/- The tag that is written as a text. -/
def ofString (s : String) : Tag :=
  ofBytes s.toUTF8.data.toList

/- The tag of a type that every text knows. -/
def core (name : String) : Tag :=
  ofString ("tag:yaml.org,2002:" ++ name)

/- A lone exclamation mark. -/
def bare : Tag :=
  ofString "!"

/- A part of a tag with another part after it. -/
def append (start suffix : Tag) : Tag :=
  ⟨start.bytes ++ suffix.bytes⟩

/- The tag is one of the text's own. -/
def isOwn (tag : Tag) : Bool :=
  tag.bytes.head? = some '!'.toUInt8

/- The name of one of the text's own tags, if it is a text. -/
def ownName? (tag : Tag) : Option String :=
  if tag.isOwn then
    String.fromUTF8? ⟨(tag.bytes.drop 1).toArray⟩
  else
    none

end Tag

end Yaml

end DesignTokens

------------------------------------------------------------
-- Reading Tags
------------------------------------------------------------

namespace DesignTokens

namespace Yaml

/- Characters of a tag; some only between angle brackets. -/
def isTagChar
    (verbatim : Bool)
    (c : Char) : Bool :=
  isWordChar c
    || ";/?:@&=+$.%!~*'()".toList.contains c
    || (verbatim && ",[]".toList.contains c)

/- Read a byte that is written as a percent sign and two digits. -/
def takeByte? : List Char → Option (UInt8 × List Char)
| '%' :: a :: b :: cs =>
    (Decimal.ofDigits? 16 [a, b]).map fun n => (n.toUInt8, cs)
| _ => none

/- How many bytes follow the first byte of a character. -/
def followers? (b : UInt8) : Option Nat :=
  if b < 0x80 then some 0
  else if b / 32 = 6 then some 1
  else if b / 16 = 14 then some 2
  else if b / 8 = 30 then some 3
  else none

/- Read the bytes that follow the first one of a character. -/
def takeFollowers? :
    Nat → List Char → Option (List UInt8 × List Char)
| 0, cs => some ([], cs)
| count + 1, cs => do
    let (b, cs) ← takeByte? cs
    if b / 64 = 2 then
      let (bytes, cs) ← takeFollowers? count cs
      return (b :: bytes, cs)
    else
      none

/- Read escapes that have the shape of one character. -/
def takeEscapes?
    (cs : List Char) : Option (List UInt8 × List Char) := do
  let (b, cs) ← takeByte? cs
  let count ← followers? b
  let (bytes, cs) ← takeFollowers? count cs
  return (b :: bytes, cs)

/- Read the bytes of a part of a tag; its characters are ASCII. -/
def takeTagBytes?
    (verbatim : Bool) :
    Nat → List Char → Option (List UInt8 × List Char)
| 0, cs => some ([], cs)
| steps + 1, cs =>
    match cs with
    | [] => some ([], [])
    | c :: rest =>
        if isTagChar verbatim c then do
          let (bytes, rest) ←
            if c = '%' then takeEscapes? (c :: rest)
            else some ([c.toUInt8], rest)
          let (others, rest) ← takeTagBytes? verbatim steps rest
          return (bytes ++ others, rest)
        else
          some ([], c :: rest)

/- Read a handle: an exclamation mark, a word and another one. -/
def takeHandle? : List Char → Option (List Char × List Char)
| '!' :: cs =>
    let word := cs.takeWhile isWordChar
    match cs.drop word.length with
    | '!' :: rest => some ('!' :: word ++ ['!'], rest)
    | rest => some ('!' :: word, rest)
| _ => none

/- The handle is closed by an exclamation mark of its own. -/
def isClosedHandle (handle : List Char) : Bool :=
  2 ≤ handle.length && handle.getLast? = some '!'

/- A handle, the part of a tag that goes with it, and the rest. -/
abbrev TagReading : Type :=
  String × Tag × List Char

/- Read a tag between angle brackets, which has no handle. -/
def takeVerbatim?
    (cs : List Char) : Option TagReading :=
  match takeTagBytes? true cs.length cs with
  | some (b :: bytes, '>' :: rest) =>
      some ("", Tag.ofBytes (b :: bytes), rest)
  | _ => none

/-
  Read a tag without brackets.  A word that no exclamation mark
  closes belongs to the part after the handle, and a handle with
  nothing after it is a tag by itself.
-/
def takeShorthand?
    (cs : List Char) : Option TagReading := do
  let (handle, rest) ← takeHandle? cs
  let (bytes, rest) ← takeTagBytes? false rest.length rest
  if isClosedHandle handle then
    if bytes = [] then
      none
    else
      return (String.ofList handle, Tag.ofBytes bytes, rest)
  else
    let word := (handle.drop 1).map Char.toUInt8
    let suffix := Tag.ofBytes (word ++ bytes)
    if suffix.bytes = [] then
      return ("", Tag.bare, rest)
    else
      return ("!", suffix, rest)

/- Read a tag; a blank or, in a flow collection, a comma ends it. -/
def takeTag?
    (flow : Bool)
    (cs : List Char) : Option TagReading := do
  let (handle, suffix, rest) ←
    match cs with
    | '!' :: '<' :: cs => takeVerbatim? cs
    | _ => takeShorthand? cs
  if startsBlank rest || (flow && rest.head? = some ',') then
    return (handle, suffix, rest)
  else
    none

/- Read a handle and the part of a tag that it stands for. -/
def takeTagHandle?
    (cs : List Char) : Option TagReading := do
  let (handle, rest) ← takeHandle? (cs.dropWhile isBlank)
  let text := rest.dropWhile isBlank
  let (bytes, after) ← takeTagBytes? true text.length text
  if (handle = ['!'] || isClosedHandle handle)
      && rest.head?.any isBlank
      && bytes ≠ [] && startsBlank after then
    return (String.ofList handle, Tag.ofBytes bytes, after)
  else
    none

end Yaml

end DesignTokens
