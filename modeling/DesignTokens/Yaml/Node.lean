import DesignTokens.Yaml.Token

/-
  This file defines YAML nodes and reading them from tokens.

  Key definitions include:
    * `Yaml.Node`
    * `Yaml.Stream`
    * `Yaml.Stream.ofTokens?`

  A node may carry an anchor, and an alias stands for the node
  of an anchor before it.  Anchors are kept as numbers: a new
  anchor gets the count of the names known so far, also when it
  takes over a name, and an alias stands for the last node that
  got its number.
-/

------------------------------------------------------------
-- Nodes
------------------------------------------------------------

namespace DesignTokens

namespace Yaml

/- What may stand before the content of a node. -/
structure Properties where
  anchor : Option Nat
  tag : Option Tag
deriving DecidableEq, Repr

/- A value of a document as it is written. -/
inductive Node where
| scalar (props : Properties) (style : Style) (text : String)
| sequence (props : Properties) (items : List Node)
| mapping (props : Properties) (entries : List (Node × Node))
| aliasOf (anchor : Nat)
deriving Inhabited

namespace Node

/- The node of a place where nothing is written. -/
def empty : Node :=
  .scalar ⟨none, none⟩ .plain ""

/- The anchor of a node. -/
def anchor? : Node → Option Nat
| scalar props _ _ => props.anchor
| sequence props _ => props.anchor
| mapping props _ => props.anchor
| aliasOf _ => none

/- The node by itself, if it has an anchor. -/
def ownTarget (node : Node) : List (Nat × Node) :=
  match node.anchor? with
  | some n => [(n, node)]
  | none => []

mutual

/- The nodes with anchors inside a node, in document order. -/
def targets : Node → List (Nat × Node)
| scalar props style text => ownTarget (.scalar props style text)
| sequence props items =>
    ownTarget (.sequence props items) ++ targetsOfItems items
| mapping props entries =>
    ownTarget (.mapping props entries) ++ targetsOfEntries entries
| aliasOf _ => []

/- The nodes with anchors inside items. -/
def targetsOfItems : List Node → List (Nat × Node)
| [] => []
| node :: nodes => targets node ++ targetsOfItems nodes

/- The nodes with anchors inside entries. -/
def targetsOfEntries : List (Node × Node) → List (Nat × Node)
| [] => []
| (key, value) :: entries =>
    targets key ++ targets value ++ targetsOfEntries entries

end

mutual

/- How many marks and scalars a node is made of. -/
def eventCount : Node → Nat
| scalar _ _ _ => 1
| sequence _ items => 2 + eventCountOfItems items
| mapping _ entries => 2 + eventCountOfEntries entries
| aliasOf _ => 1

/- How many marks and scalars items are made of. -/
def eventCountOfItems : List Node → Nat
| [] => 0
| node :: nodes => eventCount node + eventCountOfItems nodes

/- How many marks and scalars entries are made of. -/
def eventCountOfEntries : List (Node × Node) → Nat
| [] => 0
| (key, value) :: entries =>
    eventCount key + eventCount value + eventCountOfEntries entries

end

end Node

end Yaml

end DesignTokens

------------------------------------------------------------
-- The State of Reading
------------------------------------------------------------

namespace DesignTokens

namespace Yaml

/-
  The tokens that are left, the numbers of the anchors known, and
  what the handles of tags stand for.
-/
structure ReadState where
  tokens : List Token
  anchors : List (String × Nat)
  handles : List (String × Tag)

/- Reading from tokens, which may be refused. -/
abbrev Read (α : Type) : Type :=
  StateT ReadState Option α

namespace Read

/- The next token, which stays. -/
def peek : Read (Option Token) := do
  return (← get).tokens.head?

/- Pass the next token. -/
def pass : Read Unit :=
  modify fun s => { s with tokens := s.tokens.drop 1 }

/- The next token is one of the given ones. -/
def atOneOf (ends : List Token) : Read Bool := do
  match ← peek with
  | none => return false
  | some token => return token ∈ ends

/- Pass the next token if it is the given one. -/
def tryPass (token : Token) : Read Bool := do
  if (← peek) = some token then
    pass
    return true
  else
    return false

/- Pass the next token, which must be the given one. -/
def expect (token : Token) : Read Unit := do
  if ← tryPass token then
    return ()
  else
    failure

/- Give a new anchor its number. -/
def bindAnchor (name : String) : Read Nat := do
  let s ← get
  let number := s.anchors.length
  let others := s.anchors.filter (·.1 ≠ name)
  set { s with anchors := (name, number) :: others }
  return number

/- The node that an alias stands for, by its number. -/
def findAnchor (name : String) : Read Node := do
  match (← get).anchors.lookup name with
  | some number => return .aliasOf number
  | none => failure

/- The tag of a handle and the part after it. -/
def resolveTag
    (handle : String)
    (suffix : Tag) : Read Tag := do
  if handle = "" then
    return suffix
  else
    match (← get).handles.lookup handle with
    | some start => return start.append suffix
    | none => failure

/- Read an anchor, if there is one. -/
def anchor : Read (Option String) := do
  match ← peek with
  | some (.anchor name) => do
      pass
      return some name
  | _ => return none

/- Read a tag, if there is one. -/
def tag : Read (Option Tag) := do
  match ← peek with
  | some (.tag handle suffix) => do
      pass
      return some (← resolveTag handle suffix)
  | _ => return none

/- Read an anchor and a tag in either order. -/
def properties : Read (Option String × Option Tag) := do
  match ← anchor with
  | some name => return (some name, ← tag)
  | none => do
      match ← tag with
      | some tag => return (← anchor, some tag)
      | none => return (none, none)

end Read

end Yaml

end DesignTokens

------------------------------------------------------------
-- Reading Nodes
------------------------------------------------------------

namespace DesignTokens

namespace Yaml

namespace Read

/- Tokens that end an entry of a block mapping. -/
def blockEntryEnds : List Token :=
  [.key, .value, .blockEnd]

/- Tokens that end an item of a sequence without indentation. -/
def looseItemEnds : List Token :=
  [.blockEntry, .key, .value, .blockEnd]

mutual

/-
  Read a node.  Only in `block` position it may be a block
  collection, and only a value of a block mapping may be a
  sequence that is `loose`, not deeper than its key.
-/
def node
    (block loose : Bool) :
    Nat → Read Node
| 0 => failure
| steps + 1 => do
    match ← peek with
    | some (.aliasTo name) => do
        pass
        findAnchor name
    | _ => do
        let (name, tag) ← properties
        let anchor ← name.mapM bindAnchor
        let props : Properties := ⟨anchor, tag⟩
        match ← peek with
        | some (.scalar style text) => do
            pass
            return .scalar props style text
        | some .flowSequenceStart => do
            pass
            return .sequence props (← flowItems true steps)
        | some .flowMappingStart => do
            pass
            return .mapping props (← flowEntries true steps)
        | some token => do
            if loose && token = .blockEntry then
              return .sequence props (← looseItems steps)
            else if block && token = .blockSequenceStart then
              pass
              return .sequence props (← blockItems steps)
            else if block && token = .blockMappingStart then
              pass
              return .mapping props (← blockEntries steps)
            else if name.isSome || tag.isSome then
              return .scalar props .plain ""
            else
              failure
        | none =>
            if name.isSome || tag.isSome then
              return .scalar props .plain ""
            else
              failure

/- Read a node, or nothing before one of the given tokens. -/
def nodeUnless
    (block loose : Bool)
    (ends : List Token) :
    Nat → Read Node
| 0 => failure
| steps + 1 => do
    if ← atOneOf ends then
      return .empty
    else
      node block loose steps

/- Read the items of a block sequence and its end. -/
def blockItems : Nat → Read (List Node)
| 0 => failure
| steps + 1 => do
    if ← tryPass .blockEntry then
      let item ←
        nodeUnless true false [.blockEntry, .blockEnd] steps
      return item :: (← blockItems steps)
    else
      expect .blockEnd
      return []

/- Read the items of a sequence that has no end of its own. -/
def looseItems : Nat → Read (List Node)
| 0 => failure
| steps + 1 => do
    if ← tryPass .blockEntry then
      let item ← nodeUnless true false looseItemEnds steps
      return item :: (← looseItems steps)
    else
      return []

/- Read the entries of a block mapping and its end. -/
def blockEntries : Nat → Read (List (Node × Node))
| 0 => failure
| steps + 1 => do
    if ← tryPass .key then
      let key ← nodeUnless true true blockEntryEnds steps
      let value ←
        if ← tryPass .value then
          nodeUnless true true blockEntryEnds steps
        else
          pure .empty
      return (key, value) :: (← blockEntries steps)
    else
      expect .blockEnd
      return []

/-
  Read the items of a flow sequence and its end.  A comma stands
  before every item but the first, and may stand before the end.
-/
def flowItems
    (first : Bool) :
    Nat → Read (List Node)
| 0 => failure
| steps + 1 => do
    if ← tryPass .flowSequenceEnd then
      return []
    else
      if !first then
        expect .flowEntry
      if ← tryPass .flowSequenceEnd then
        return []
      else if ← tryPass .key then
        let item ← flowPair steps
        return item :: (← flowItems false steps)
      else
        let item ← node false false steps
        return item :: (← flowItems false steps)

/-
  Read an item of a flow sequence that is a mapping of one entry,
  after its key mark.  A missing key takes the mark that follows
  it along.
-/
def flowPair : Nat → Read Node
| 0 => failure
| steps + 1 => do
    let key ←
      if ← atOneOf [.value, .flowEntry, .flowSequenceEnd] then
        pass
        pure .empty
      else
        node false false steps
    let value ←
      if ← tryPass .value then
        nodeUnless false false [.flowEntry, .flowSequenceEnd] steps
      else
        pure .empty
    return .mapping ⟨none, none⟩ [(key, value)]

/- Read the entries of a flow mapping and its end. -/
def flowEntries
    (first : Bool) :
    Nat → Read (List (Node × Node))
| 0 => failure
| steps + 1 => do
    if ← tryPass .flowMappingEnd then
      return []
    else
      if !first then
        expect .flowEntry
      if ← tryPass .flowMappingEnd then
        return []
      else if ← tryPass .key then
        let key ←
          nodeUnless false false
            [.value, .flowEntry, .flowMappingEnd] steps
        let value ←
          if ← tryPass .value then
            nodeUnless false false [.flowEntry, .flowMappingEnd]
              steps
          else
            pure .empty
        return (key, value) :: (← flowEntries false steps)
      else
        let key ← node false false steps
        return (key, .empty) :: (← flowEntries false steps)

end

end Read

end Yaml

end DesignTokens

------------------------------------------------------------
-- Streams
------------------------------------------------------------

namespace DesignTokens

namespace Yaml

/- A text with at most one document. -/
inductive Stream where
| void
| document (root : Node)

namespace Read

/- What the handles of tags stand for unless declared. -/
def defaultHandles : List (String × Tag) :=
  [("!", Tag.bare), ("!!", Tag.core "")]

/-
  Read the directives before a document, given the handles that
  they have declared and whether a version was declared.
-/
def directives
    (declared : List (String × Tag)) :
    Bool → Nat → Read Unit
| _, 0 => failure
| versioned, steps + 1 => do
    match ← peek with
    | some (.version major minor) => do
        let known :=
          Decimal.ofDigits major = 1
            && (Decimal.ofDigits minor = 1
              || Decimal.ofDigits minor = 2)
        if versioned || !known then
          failure
        else
          pass
          directives declared true steps
    | some (.tagHandle handle start) => do
        if (declared.lookup handle).isSome then
          failure
        else
          pass
          directives ((handle, start) :: declared) versioned steps
    | _ =>
        modify fun s =>
          { s with handles := declared ++ defaultHandles }

/- Tokens that cannot start the content of a document. -/
def isDocumentEnd : Option Token → Bool
| none => true
| some .documentStart => true
| some .documentEnd => true
| some (.version _ _) => true
| some (.tagHandle _ _) => true
| some _ => false

/- Pass the marks that end a document. -/
def passEnds : Nat → Read Unit
| 0 => failure
| steps + 1 => do
    if ← tryPass .documentEnd then
      passEnds steps
    else
      return ()

/- Read the root of a document that is marked as one or not. -/
def root (steps : Nat) : Read Node := do
  match ← peek with
  | some .documentStart
  | some (.version _ _)
  | some (.tagHandle _ _) => do
      directives [] false steps
      expect .documentStart
      if isDocumentEnd (← peek) then
        return .empty
      else
        node true false steps
  | _ => node true false steps

/- Read a text that has tokens; nothing may follow a document. -/
def document (steps : Nat) : Read Node := do
  let root ← root steps
  passEnds steps
  if (← peek).isSome then
    failure
  else
    return root

end Read

/-
  The document of some tokens.  Every step of reading passes a
  token or goes to a part of the node being read.
-/
def Stream.ofTokens? : List Token → Option Stream
| [] => some .void
| tokens =>
    let start : ReadState := ⟨tokens, [], Read.defaultHandles⟩
    ((Read.document (4 * tokens.length + 8)).run start).map
      fun result => .document result.1

end Yaml

end DesignTokens
