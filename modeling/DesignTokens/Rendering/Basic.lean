import DesignTokens.Rendering.Catalogue
import DesignTokens.Rendering.OutputFormat
import DesignTokens.Rendering.Stylesheet

/-
  This file defines the output document of an emission in the
  format that is asked for.

  Key definitions include:
    * `RenderOptions`
    * `Emission.render`
-/

------------------------------------------------------------
-- Rendering
------------------------------------------------------------

namespace DesignTokens

/- The format, and whether stylesheets hold descriptions. -/
structure RenderOptions where
  format : OutputFormat
  descriptions : Bool
deriving DecidableEq, Repr

/- The output document of an emission. -/
def Emission.render
    (emission : Emission)
    (options : RenderOptions) : String :=
  match options.format with
  | .css => Stylesheet.render options.descriptions emission
  | .json => Catalogue.render emission

end DesignTokens
