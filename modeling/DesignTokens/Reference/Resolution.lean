import DesignTokens.Literal.Basic
import DesignTokens.Reference.Basic
import DesignTokens.Reference.Scope
import DesignTokens.Store.Basic

/-
  This file defines following references through the store
  until a literal is reached.

  Key definitions include:
    * `Store.locate?`
    * `Store.step`
    * `Store.follow`
    * `Store.resolve`
    * `ResolveError`

  A chain of references is a sequence of hops.  Each hop lands
  at a location; a chain that lands twice at one location is a
  cycle, and a chain may have a limited number of hops only.
-/

------------------------------------------------------------
-- Errors
------------------------------------------------------------

namespace DesignTokens

/- One hop of a chain: a reference and where it landed. -/
structure Hop where
  reference : Reference
  location : Location
deriving DecidableEq, Repr

/- How a hop is shown: the layer it landed in and its path. -/
def Hop.label (hop : Hop) : String :=
  hop.location.collection.name ++ ":" ++ hop.reference.path

/- Why a value has no literal at the end of its chain. -/
inductive ResolveError where
| notFound (reference : Reference) (searched : List Collection)
| cycle (chain : List Hop)
| depthExceeded (reference : Reference) (limit : Nat)
| notAToken (reference : Reference)
| malformedTarget (reference : Reference) (cause : RecordError)
| nullValue
deriving DecidableEq, Repr

namespace ResolveError

/- The text of the error. -/
def message : ResolveError → String
| notFound r searched =>
    "reference '" ++ r.text ++ "' not found in "
      ++ ", ".intercalate (searched.map Collection.name)
| cycle chain =>
    "reference cycle detected: "
      ++ " -> ".intercalate (chain.map Hop.label)
| depthExceeded r limit =>
    "reference '" ++ r.text ++ "' exceeds the maximum depth of "
      ++ toString limit ++ " hops"
| notAToken r =>
    "reference '" ++ r.text ++ "' points at a namespace, not a token"
| malformedTarget r cause =>
    "reference '" ++ r.text ++ "' points at a malformed record: "
      ++ cause.message
| nullValue => "token value is null"

/- The chain loops. -/
def IsCycle (e : ResolveError) : Prop :=
  ∃ chain, e = cycle chain

instance (e : ResolveError) : Decidable e.IsCycle :=
  match e with
  | cycle chain => .isTrue ⟨chain, rfl⟩
  | notFound _ _
  | depthExceeded _ _
  | notAToken _
  | malformedTarget _ _
  | nullValue => .isFalse (by simp [IsCycle])

end ResolveError

end DesignTokens

------------------------------------------------------------
-- Single Hops
------------------------------------------------------------

namespace DesignTokens

/- Where a hop landed, and the value and scope to go on with. -/
structure Landing where
  location : Location
  value : Json
  scope : Scope

namespace Store

/-
  The locations that a reference may mean, in the order of the
  search: layer by layer, and in each layer reading by reading.
-/
def candidates
    (r : Reference)
    (scope : Scope) : List Location :=
  scope.searchOrder.flatMap fun c =>
    r.readings.map fun path => ⟨c, path⟩

/- The first location in the search that holds a node. -/
def locate?
    (store : Store)
    (r : Reference)
    (scope : Scope) : Option (Location × Json) :=
  (candidates r scope).findSome? fun l =>
    (store.node? l).map fun node => (l, node)

/-
  The value and the hint to go on with from a node.  A record
  goes on with its value, and its own hint replaces the hint in
  force; a namespace is no token; any other node is a value.
-/
def enter
    (r : Reference)
    (hint : Option Collection)
    (node : Json) :
    Except ResolveError (Json × Option Collection) :=
  if Record.IsRecord node then
    match Record.ofJson node with
    | .error e => .error (.malformedTarget r e)
    | .ok record => .ok (record.value, record.hint.or hint)
  else if node.IsObject then
    .error (.notAToken r)
  else
    .ok (node, hint)

/- Follow one reference. -/
def step
    (store : Store)
    (r : Reference)
    (scope : Scope) : Except ResolveError Landing :=
  match store.locate? r scope with
  | none => .error (.notFound r scope.searchOrder)
  | some (l, node) =>
      match enter r scope.hint node with
      | .error e => .error e
      | .ok (value, hint) => .ok ⟨l, value, ⟨l.collection, hint⟩⟩

end Store

end DesignTokens

------------------------------------------------------------
-- Chains
------------------------------------------------------------

namespace DesignTokens

namespace Store

/-
  Follow a chain for a number of further hops.  The hops made so
  far tell whether it comes back to a location.
-/
def follow
    (store : Store)
    (limit : Nat) :
    Nat → List Hop → Json → Scope → Except ResolveError Literal
| remaining, trail, raw, scope =>
    match Reference.ofJson? raw with
    | none =>
        match Literal.ofJson? raw with
        | none => .error .nullValue
        | some l => .ok l
    | some r =>
        match remaining with
        | 0 => .error (.depthExceeded r limit)
        | remaining + 1 =>
            match store.step r scope with
            | .error e => .error e
            | .ok landing =>
                let trail' := trail ++ [⟨r, landing.location⟩]
                if landing.location ∈ trail.map Hop.location then
                  .error (.cycle trail')
                else
                  store.follow limit remaining trail'
                    landing.value landing.scope

/- How many hops a chain may have unless told otherwise. -/
def defaultLimit : Nat :=
  10

/- The literal that a value stands for in a scope. -/
def resolve
    (store : Store)
    (limit : Nat)
    (raw : Json)
    (scope : Scope) : Except ResolveError Literal :=
  store.follow limit limit [] raw scope

/- The literal that a record of a layer stands for. -/
def resolveRecord
    (store : Store)
    (limit : Nat)
    (record : Record)
    (layer : Collection) : Except ResolveError Literal :=
  store.resolve limit record.value ⟨layer, record.hint⟩

end Store

end DesignTokens
