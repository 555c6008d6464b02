/-
  This file defines the declared types of tokens.

  Key definitions include:
    * `TokenType`
    * `TokenType.ofName`
    * `TokenType.IsPixel`

  A type decides how a number is written and nothing else.
  Names are matched as they are written; an unknown name is
  kept.
-/

------------------------------------------------------------
-- Token Types
------------------------------------------------------------

namespace DesignTokens

/- What a token declares its value to be. -/
inductive TokenType where
| color
| dimension
| sizing
| spacing
| opacity
| fontWeight
| duration
| string
| other (name : String)
| unspecified
deriving DecidableEq, Repr

namespace TokenType

/- The type that a name declares. -/
def ofName (name : String) : TokenType :=
  if name = "color" then .color
  else if name = "dimension" then .dimension
  else if name = "sizing" then .sizing
  else if name = "spacing" then .spacing
  else if name = "opacity" then .opacity
  else if name = "fontWeight" || name = "fontWeights" then .fontWeight
  else if name = "duration" then .duration
  else if name = "string" then .string
  else .other name

/- Numbers of the type are lengths in pixels. -/
def IsPixel (t : TokenType) : Prop :=
  t = .dimension ∨ t = .sizing ∨ t = .spacing

instance (t : TokenType) : Decidable t.IsPixel := by
  unfold IsPixel
  infer_instance

end TokenType

end DesignTokens
