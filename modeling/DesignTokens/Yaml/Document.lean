import DesignTokens.Json.Document
import DesignTokens.Yaml.Node
import DesignTokens.Yaml.Schema

/-
  This file defines the JSON document of a YAML text.

  Key definitions include:
    * `Yaml.Targets`
    * `Yaml.Node.toJson?`
    * `Yaml.read?`
    * `Document.ofYamlText?`

  Keys are texts whatever they are written as.  Numbers that
  JSON cannot hold read as null.  A value that is tagged with a
  name of the text's own is refused; a lone exclamation mark is
  such a tag, with an empty name.
-/

------------------------------------------------------------
-- Aliases
------------------------------------------------------------

namespace DesignTokens

namespace Yaml

/- The nodes that aliases stand for, the last one first. -/
abbrev Targets : Type :=
  List (Nat × Node)

/- The nodes that aliases of a document stand for. -/
def Targets.ofRoot (root : Node) : Targets :=
  root.targets.reverse

/- The node itself, or the node that it stands for. -/
def Node.follow?
    (targets : Targets) :
    Node → Option Node
| .aliasOf n => targets.lookup n
| node => some node

/- The text of a node that is a scalar. -/
def Node.text?
    (targets : Targets)
    (node : Node) : Option String :=
  match node.follow? targets with
  | some (.scalar _ _ text) => some text
  | _ => none

end Yaml

end DesignTokens

------------------------------------------------------------
-- Scalars
------------------------------------------------------------

namespace DesignTokens

namespace Yaml

/- The JSON value of a double; only finite ones are numbers. -/
def jsonOfFloat (x : Float) : Json :=
  if x.isFinite then .number x else .null

/- The JSON value of an integer, which must fit 64 bits. -/
def jsonOfInteger? (n : Int) : Option Json :=
  if fits64 n then
    some (.number (Decimal.signed (n < 0) (Decimal.nearest n.natAbs 1)))
  else
    none

/- The JSON value of a plain scalar. -/
def Plain.toJson? : Plain → Option Json
| .null => some .null
| .boolean b => some (.boolean b)
| .integer n => jsonOfInteger? n
| .float x => some (jsonOfFloat x)
| .string s => some (.text s)

/-
  The JSON value of a scalar.  A name of the text's own as a tag
  is refused; an own tag that is no text says nothing.
-/
def jsonOfScalar?
    (tag : Option Tag)
    (style : Style)
    (text : String) : Option Json :=
  match tag with
  | none =>
      if style = .plain then (Plain.ofText text).toJson?
      else some (.text text)
  | some tag =>
      if tag.ownName?.isSome then
        none
      else if tag.isOwn && style = .plain then
        (Plain.ofText text).toJson?
      else if tag = Tag.core "bool" then
        (booleanOfWord? text).map .boolean
      else if tag = Tag.core "int" then
        (ofInteger? text.toList).bind jsonOfInteger?
      else if tag = Tag.core "float" then
        (ofFloat? text.toList).map jsonOfFloat
      else if tag = Tag.core "null" then
        if isNullWord text then some .null else none
      else
        some (.text text)

end Yaml

end DesignTokens

------------------------------------------------------------
-- Values
------------------------------------------------------------

namespace DesignTokens

namespace Yaml

/- How many collections may be nested. -/
def maxNesting : Nat :=
  128

/- Follow aliases a limited number of times. -/
abbrev Expand (α : Type) : Type :=
  StateT Nat Option α

namespace Expand

/- The node that a node stands for; an alias counts. -/
def follow
    (targets : Targets)
    (node : Node) : Expand Node := do
  match node with
  | .aliasOf _ =>
      match ← get with
      | 0 => failure
      | budget + 1 => set budget
  | _ => pure ()
  match node.follow? targets with
  | some node => return node
  | none => failure

/- A collection may not be tagged with a name of the text's own. -/
def checkTag (props : Properties) : Expand Unit :=
  if (props.tag.bind Tag.ownName?).isSome then
    failure
  else
    return ()

/- The key that a node is the text of. -/
def key
    (targets : Targets)
    (node : Node) : Expand String := do
  match ← follow targets node with
  | .scalar _ _ text => return text
  | _ => failure

/- The JSON value of a node with room for nested collections. -/
def value
    (targets : Targets) :
    Nat → Node → Expand Json
| room, node => do
    match ← follow targets node with
    | .scalar props style text =>
        match jsonOfScalar? props.tag style text with
        | some j => return j
        | none => failure
    | .sequence props items => do
        checkTag props
        match room with
        | 0 => failure
        | room + 1 => return .array (← items.mapM (value targets room))
    | .mapping props entries => do
        checkTag props
        match room with
        | 0 => failure
        | room + 1 => do
            let members ← entries.mapM fun entry => do
              let k ← key targets entry.1
              return (k, ← value targets room entry.2)
            return .object members
    | .aliasOf _ => failure

end Expand

/-
  The JSON value of a root node.  Aliases may be followed a
  hundred times for each mark and scalar of the document.
-/
def Node.toJson? (root : Node) : Option Json :=
  ((Expand.value (Targets.ofRoot root) maxNesting root).run
    (100 * root.eventCount)).map Prod.fst

/- The stream of a YAML text. -/
def readStream? (s : String) : Option Stream := do
  let tokens ← Token.ofChars? s.toList
  Stream.ofTokens? tokens

/- The JSON value of a stream; an empty one is null. -/
def Stream.toJson? : Stream → Option Json
| .void => some .null
| .document root => root.toJson?

/- The JSON value of a YAML text, as it is written. -/
def read? (s : String) : Option Json :=
  (readStream? s).bind Stream.toJson?

end Yaml

/- The document of a YAML text. -/
def Document.ofYamlText? (s : String) : Option Document :=
  (Yaml.read? s).map settled

end DesignTokens
