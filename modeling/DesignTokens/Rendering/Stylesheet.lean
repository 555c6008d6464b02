import DesignTokens.Emission.Basic

/-
  This file defines the stylesheet of an emission.

  Key definitions include:
    * `Stylesheet.guardComment`
    * `Stylesheet.lines`
    * `Stylesheet.render`

  The stylesheet opens with a comment that lists the deprecated
  tokens, and declares the variables of each layer in a block
  of its own.
-/

------------------------------------------------------------
-- Comments
------------------------------------------------------------

namespace DesignTokens

namespace Stylesheet

/-
  Characters that may stand in a comment: a space parts every
  star from a slash after it, so that nothing closes the comment
  early.
-/
def guardChars : List Char → List Char
| [] => []
| '*' :: '/' :: cs => '*' :: ' ' :: '/' :: guardChars cs
| c :: cs => c :: guardChars cs

/- A text that may stand in a comment. -/
def guardComment (s : String) : String :=
  String.ofList (guardChars s.toList)

end Stylesheet

end DesignTokens

------------------------------------------------------------
-- Lines
------------------------------------------------------------

namespace DesignTokens

namespace Stylesheet

/- What the opening comment says of the file. -/
def banner : String :=
  "Generated by tokensmith. Do not edit directly."

/- The line of a deprecated token; an empty replacement is none. -/
def deprecatedLine (token : DeprecatedToken) : String :=
  " *   " ++ token.identifier ++
    match token.replacedBy with
    | none => ""
    | some replacement =>
        if replacement = "" then
          ""
        else
          " -> " ++ guardComment replacement

/- The lines that list the deprecated tokens, if there are any. -/
def deprecatedLines
    (tokens : List DeprecatedToken) : List String :=
  if tokens.isEmpty then
    []
  else
    " *" :: " * Deprecated tokens:" :: tokens.map deprecatedLine

/- The comment after a declaration; an empty description is none. -/
def trailingComment
    (descriptions : Bool)
    (entry : Entry) : String :=
  match entry.description with
  | none => ""
  | some description =>
      if descriptions ∧ description ≠ "" then
        " /* " ++ guardComment description ++ " */"
      else
        ""

/- The line that declares a variable. -/
def declaration
    (descriptions : Bool)
    (entry : Entry) : String :=
  "  " ++ entry.identifier ++ ": " ++ entry.value ++ ";"
    ++ trailingComment descriptions entry

/- The lines of one layer. -/
def layerLines
    (descriptions : Bool)
    (c : Collection)
    (entries : List Entry) : List String :=
  ["", "/* " ++ c.title ++ " */", ":root \x7b"]
    ++ entries.map (declaration descriptions)
    ++ ["\x7d"]

/- The lines of a stylesheet. -/
def lines
    (descriptions : Bool)
    (emission : Emission) : List String :=
  ["/**", " * " ++ banner]
    ++ deprecatedLines emission.deprecated
    ++ [" */"]
    ++ Collection.all.flatMap
        (fun c => layerLines descriptions c (emission.entries.get c))

/- The stylesheet of an emission, each line with its end. -/
def render
    (descriptions : Bool)
    (emission : Emission) : String :=
  String.join ((lines descriptions emission).map (· ++ "\n"))

end Stylesheet

end DesignTokens
