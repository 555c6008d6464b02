import DesignTokens.Text.Case

/-
  This file defines the formats of output documents.

  Key definitions include:
    * `OutputFormat`
    * `OutputFormat.ofName?`
-/

------------------------------------------------------------
-- Output Formats
------------------------------------------------------------

namespace DesignTokens

/- A stylesheet or a JSON document. -/
inductive OutputFormat where
| css
| json
deriving DecidableEq, Repr

namespace OutputFormat

/- The name of the format, also its file extension. -/
def name : OutputFormat → String
| .css => "css"
| .json => "json"

/- The format with exactly this name. -/
def ofExactName? (s : String) : Option OutputFormat :=
  if s = "css" then some .css
  else if s = "json" then some .json
  else none

/- The format with this name; ASCII case does not matter. -/
def ofName? (s : String) : Option OutputFormat :=
  ofExactName? (Text.lowerAscii s)

/- What is said of a name that is no format's. -/
def unknownMessage (s : String) : String :=
  "unknown output format '" ++ Text.lowerAscii s
    ++ "' (expected css or json)"

end OutputFormat

end DesignTokens
