import DesignTokens.Collection
import DesignTokens.Text.Split

/-
  This file defines the identifiers of tokens.

  Key definitions include:
    * `Namer`
    * `Namer.layerPrefix`
    * `Namer.identifier`
    * `normalizePath`

  An identifier has a part for the layer and a part for the
  path.  Only small letters, digits and hyphens stand in it.
-/

------------------------------------------------------------
-- Normalization
------------------------------------------------------------

namespace DesignTokens

/- The characters of identifiers. -/
def isNameChar (c : Char) : Bool :=
  ('a' ≤ c && c ≤ 'z') || ('0' ≤ c && c ≤ '9') || c = '-'

/-
  A character in small letters, with a hyphen for each character
  that may not stand in an identifier.  Two letters outside
  ASCII have a small form with an ASCII letter: the capital I
  with a dot, which becomes an i and a combining dot, and the
  kelvin sign.
-/
def normalizeChar (c : Char) : List Char :=
  if isNameChar c then
    [c]
  else if 'A' ≤ c && c ≤ 'Z' then
    [c.toLower]
  else if c = '\u0130' then
    ['i', '-']
  else if c = '\u212A' then
    ['k']
  else
    ['-']

/- The characters of a text as they stand in an identifier. -/
def normalizeChars (cs : List Char) : List Char :=
  cs.flatMap normalizeChar

/- A text as it stands in an identifier. -/
def normalize (s : String) : String :=
  String.ofList (normalizeChars s.toList)

/- A path as it stands in an identifier. -/
def normalizePath (path : List String) : String :=
  normalize (Text.join '-' path)

end DesignTokens

------------------------------------------------------------
-- Namers
------------------------------------------------------------

namespace DesignTokens

/- How tokens are named: the first part of every identifier. -/
structure Namer where
  root : String
deriving DecidableEq, Repr

namespace Namer

/- The first part used unless told otherwise. -/
def defaultRoot : String :=
  "token"

/- The first part of every identifier of a layer. -/
def layerPrefix
    (namer : Namer)
    (c : Collection) : String :=
  if namer.root = "" then
    "--" ++ c.slug ++ "-"
  else
    "--" ++ normalize namer.root ++ "-" ++ c.slug ++ "-"

/- The identifier of a token, by its path and layer. -/
def identifier
    (namer : Namer)
    (path : List String)
    (c : Collection) : String :=
  namer.layerPrefix c ++ normalizePath path

end Namer

end DesignTokens
