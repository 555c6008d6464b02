import DesignTokens.Text.Blank
import DesignTokens.Text.Case

/-
  This file defines the three layers of a design system and
  families of values indexed by a layer.

  Key definitions include:
    * `Collection`
    * `Collection.all`
    * `Collection.ofHint?`
    * `Layers`

  Without hints, layering runs one way: semantic tokens may
  point at primitives, component tokens at semantic tokens and
  primitives, and primitives at other primitives only.
-/

------------------------------------------------------------
-- Layers of a Design System
------------------------------------------------------------

namespace DesignTokens

/- One of the three layers that tokens live in. -/
inductive Collection where
| primitives
| semantic
| component
deriving DecidableEq, Repr

namespace Collection

/- All layers, in the order of every output. -/
def all : List Collection :=
  [.primitives, .semantic, .component]

theorem mem_all (c : Collection) : c ∈ all := by
  cases c <;> decide

/- The name used in hints, messages and documents. -/
def name : Collection → String
| .primitives => "primitives"
| .semantic => "semantic"
| .component => "component"

/- The heading of the layer's part of a stylesheet. -/
def title : Collection → String
| .primitives => "Primitives"
| .semantic => "Semantic"
| .component => "Component"

/- The word that stands for the layer inside an identifier. -/
def slug : Collection → String
| .primitives => "primitive"
| .semantic => "semantic"
| .component => "component"

theorem name_injective
    {c d : Collection}
    (h : c.name = d.name) :
    c = d := by
  cases c <;> cases d <;> first | rfl | (revert h; decide)

end Collection

end DesignTokens

------------------------------------------------------------
-- Hints
------------------------------------------------------------

namespace DesignTokens

namespace Collection

/-
  Read the layer that a hint names.  Surrounding blanks and
  ASCII case do not matter, and each layer has a few spellings.
-/
def ofHint? (hint : String) : Option Collection :=
  let word := Text.lowerAscii (Text.trim hint)
  if word = "primitives" || word = "primitive" then
    some .primitives
  else if word = "semantic" || word = "semantic-tokens" then
    some .semantic
  else if word = "component" || word = "components"
      || word = "component-tokens" then
    some .component
  else
    none

/- What is said of a hint that names no layer. -/
def unknownMessage (hint : String) : String :=
  "unknown collection '" ++ hint
    ++ "' (expected primitives, semantic or component)"

end Collection

end DesignTokens

------------------------------------------------------------
-- Families Indexed by a Layer
------------------------------------------------------------

namespace DesignTokens

/- One value for each layer. -/
structure Layers (α : Type) where
  primitives : α
  semantic : α
  component : α
deriving DecidableEq, Repr

namespace Layers

variable {α β : Type}

/- The value of one layer. -/
def get (l : Layers α) : Collection → α
| .primitives => l.primitives
| .semantic => l.semantic
| .component => l.component

/- The family with a given value for each layer. -/
def ofFn (f : Collection → α) : Layers α :=
  ⟨f .primitives, f .semantic, f .component⟩

/- Apply a function to the value of every layer. -/
def map (f : α → β) (l : Layers α) : Layers β :=
  ⟨f l.primitives, f l.semantic, f l.component⟩

@[simp]
theorem get_ofFn
    (f : Collection → α)
    (c : Collection) :
    (ofFn f).get c = f c := by
  cases c <;> rfl

@[simp]
theorem get_map
    (f : α → β)
    (l : Layers α)
    (c : Collection) :
    (l.map f).get c = f (l.get c) := by
  cases c <;> rfl

end Layers

end DesignTokens
