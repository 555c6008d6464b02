import DesignTokens.Store.Path

/-
  This file defines the leaves of a document, the nodes that
  should be tokens.

  Key definitions include:
    * `Leaf`
    * `Leaf.record`
    * `Json.leaves`

  Key theorems include:
    * `Leaf.record_eq`

  A leaf is a record, a value that is no object, or an object
  that declares a type but holds neither a value nor tokens.
  Every other object is a namespace.
-/

------------------------------------------------------------
-- Leaves
------------------------------------------------------------

namespace DesignTokens

/- A node that should be a token, with the keys that lead to it. -/
structure Leaf where
  path : List String
  node : Json

namespace Leaf

/-
  The record that the node holds, or why it holds none.  The
  walk tells by the shape of the node: any object that is not a
  record is one that lacks its value.
-/
def record (leaf : Leaf) : Except RecordError Record :=
  if Record.IsRecord leaf.node then
    Record.ofJson leaf.node
  else if leaf.node.IsObject then
    .error .missingValue
  else
    .error (.notARecord leaf.node.kind)

/- Reading the node by itself tells the same. -/
theorem record_eq (leaf : Leaf) :
    leaf.record = Record.ofJson leaf.node := by
  obtain ⟨path, node⟩ := leaf
  cases node with
  | object ms =>
      have hObject : (Json.object ms).IsObject := rfl
      cases hValue : (Json.object ms).get? Record.valueKey with
      | none =>
          simp [record, Record.ofJson, Record.IsRecord, hValue, hObject]
      | some value => simp [record, Record.IsRecord, hValue]
  | _ =>
      simp [record, Record.ofJson, Record.IsRecord, Json.IsObject,
        Json.get?, Json.members, Json.kind]

end Leaf

end DesignTokens

------------------------------------------------------------
-- Walking a Document
------------------------------------------------------------

namespace DesignTokens

namespace Json

/-
  An object declares a type, and all its keys are reserved.  It
  can only be a record that lacks its value.
-/
def IsStub (node : Json) : Prop :=
  (∀ key ∈ node.keys, IsReserved key)
    ∧ (node.get? Record.typeKey).isSome = true

instance (node : Json) : Decidable node.IsStub := by
  unfold IsStub
  infer_instance

/- Objects that hold tokens and are none themselves. -/
def IsNamespace (node : Json) : Prop :=
  node.IsObject ∧ ¬ Record.IsRecord node ∧ ¬ node.IsStub

instance (node : Json) : Decidable node.IsNamespace := by
  unfold IsNamespace
  infer_instance

mutual

/- The leaves at and below a node, in document order. -/
def leavesAt
    (path : List String) :
    Json → List Leaf
| object ms =>
    if (object ms).IsNamespace then
      leavesBelow path ms
    else
      [⟨path, object ms⟩]
| null => [⟨path, null⟩]
| boolean b => [⟨path, boolean b⟩]
| number x => [⟨path, number x⟩]
| text s => [⟨path, text s⟩]
| array items => [⟨path, array items⟩]

/- The leaves among and below members; reserved keys are passed. -/
def leavesBelow
    (path : List String) :
    List (String × Json) → List Leaf
| [] => []
| (key, node) :: ms =>
    (if IsReserved key then [] else leavesAt (path ++ [key]) node)
      ++ leavesBelow path ms

end

/-
  The leaves of a document.  Its root is a namespace whatever
  it holds; a root that is no object has no leaves.
-/
def leaves (root : Json) : List Leaf :=
  leavesBelow [] root.members

end Json

end DesignTokens
