import DesignTokens.Emission.Audit
import DesignTokens.Emission.Warning

/-
  This file defines emission, the way from a store to the
  variables of the output.

  Key definitions include:
    * `Entry`
    * `Draft`
    * `claimAll`
    * `Emission`
    * `Store.emit`

  Every leaf is drafted by itself: its record is read, its value
  resolved and written for its type, and its identifier formed.
  Then the drafts claim their identifiers in order, and the
  first to claim one keeps it.
-/

------------------------------------------------------------
-- Drafts
------------------------------------------------------------

namespace DesignTokens

/-
  One variable of the output.  `path` is the keys that lead to
  its leaf and not their dotted text, which is formed where it
  is shown.  Two leaves of a layer may share a dotted text, but
  they never share a path.
-/
structure Entry where
  identifier : String
  value : String
  path : List String
  description : Option String
deriving DecidableEq, Repr

/- A leaf by its keys, with its variable or why it has none. -/
structure Draft where
  collection : Collection
  path : List String
  result : Except DropCause Entry

/- How a store is emitted: the names and the limit of hops. -/
structure EmitOptions where
  namer : Namer
  limit : Nat
deriving DecidableEq, Repr

namespace Store

/- The variable of a record at a path, before names are claimed. -/
def draftRecord
    (store : Store)
    (options : EmitOptions)
    (c : Collection)
    (path : List String)
    (record : Record) : Except DropCause Entry :=
  let identifier := options.namer.identifier path c
  match store.resolveRecord options.limit record c with
  | .error e => .error (.unresolved identifier e)
  | .ok literal =>
      match literal.valueText record.type with
      | .error e => .error (.unformattable identifier e)
      | .ok value =>
          .ok ⟨identifier, value, path, record.description⟩

/- The draft of a leaf. -/
def draft
    (store : Store)
    (options : EmitOptions)
    (c : Collection)
    (leaf : Leaf) : Draft :=
  { collection := c
    path := leaf.path
    result :=
      match leaf.record with
      | .error e => .error (.malformed e)
      | .ok record => store.draftRecord options c leaf.path record }

/- The drafts of all leaves, layer by layer. -/
def drafts
    (store : Store)
    (options : EmitOptions) : List Draft :=
  Collection.all.flatMap fun c =>
    (store.leaves c).map (store.draft options c)

end Store

end DesignTokens

------------------------------------------------------------
-- Claiming Identifiers
------------------------------------------------------------

namespace DesignTokens

/-
  Let drafts claim their identifiers in order.  A draft whose
  identifier an earlier entry has loses its entry.
-/
def claimAll : List Entry → List Draft → List Draft
| _, [] => []
| claimed, d :: ds =>
    match d.result with
    | .error _ => d :: claimAll claimed ds
    | .ok entry =>
        match claimed.find? (·.identifier = entry.identifier) with
        | some first =>
            { d with
              result :=
                .error (.duplicate entry.identifier first.path) }
              :: claimAll claimed ds
        | none => d :: claimAll (claimed ++ [entry]) ds

namespace Draft

/- The entry of a draft of a layer, if it has one. -/
def entryIn?
    (c : Collection)
    (d : Draft) : Option Entry :=
  if d.collection = c then d.result.toOption else none

/- The warning of a draft, if it has no entry. -/
def warning? (d : Draft) : Option Warning :=
  match d.result with
  | .ok _ => none
  | .error cause => some ⟨d.collection, d.path, cause⟩

end Draft

end DesignTokens

------------------------------------------------------------
-- Emissions
------------------------------------------------------------

namespace DesignTokens

/- The variables of every layer, and what was found on the way. -/
structure Emission where
  entries : Layers (List Entry)
  deprecated : List DeprecatedToken
  warnings : List Warning
deriving DecidableEq, Repr

namespace Emission

/- The emission of drafts that have claimed their identifiers. -/
def ofDrafts
    (settled : List Draft)
    (deprecated : List DeprecatedToken) : Emission :=
  { entries :=
      Layers.ofFn fun c => settled.filterMap (Draft.entryIn? c)
    deprecated := deprecated
    warnings := settled.filterMap Draft.warning? }

/- The entries of all layers, in order. -/
def allEntries (emission : Emission) : List Entry :=
  Collection.all.flatMap emission.entries.get

/- The value of the variable with an identifier. -/
def value?
    (emission : Emission)
    (identifier : String) : Option String :=
  (emission.allEntries.find? (·.identifier = identifier)).map
    Entry.value

/- How many variables there are. -/
def tokenCount (emission : Emission) : Nat :=
  emission.allEntries.length

end Emission

/- The emission of a store. -/
def Store.emit
    (store : Store)
    (options : EmitOptions) : Emission :=
  Emission.ofDrafts
    (claimAll [] (store.drafts options))
    (store.audit options.namer)

end DesignTokens
