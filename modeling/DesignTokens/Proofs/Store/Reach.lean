import DesignTokens.Store.Path

/-
  This file defines the nodes of a document that can be reached
  along keys that are not reserved.

  Key definitions include:
    * `Json.reach?`
    * `Json.HintFree`

  Key theorems include:
    * `Json.reach?_cons_eq_some_iff`
    * `Json.descend?_eq_some_iff`
    * `Json.hintFree_of_members`

  The walk along a document passes every key that is not
  reserved, the empty key among them.  References cannot name
  the empty key, so they lead to fewer nodes.
-/

------------------------------------------------------------
-- Reachable Nodes
------------------------------------------------------------

namespace DesignTokens

namespace Json

/- The node at the end of a path of keys that are not reserved. -/
def reach? : List String → Json → Option Json
| [], node => some node
| key :: keys, node =>
    if IsReserved key then
      none
    else
      match node.get? key with
      | some child => reach? keys child
      | none => none

/- Reaching one key further up front. -/
theorem reach?_cons_eq_some_iff
    {node target : Json}
    {key : String}
    {keys : List String} :
    reach? (key :: keys) node = some target ↔
      ¬ IsReserved key ∧
        ∃ child, node.get? key = some child ∧
          reach? keys child = some target := by
  rw [reach?]
  by_cases hKey : IsReserved key
  · simp [hKey]
  · cases node.get? key with
    | none => simp [hKey]
    | some child => simp [hKey]

/- A path of references is one without empty keys. -/
theorem descend?_eq_some_iff
    {node target : Json}
    {path : List String} :
    descend? path node = some target ↔
      "" ∉ path ∧ reach? path node = some target := by
  induction path generalizing node with
  | nil => simp [descend?, reach?]
  | cons key keys ih =>
      rw [descend?, reach?, List.mem_cons, not_or]
      by_cases hReserved : IsReserved key
      · simp [IsAddressable, hReserved]
      · by_cases hEmpty : key = ""
        · simp [IsAddressable, hEmpty]
        · cases node.get? key with
          | none => simp [hReserved]
          | some child =>
              simp [IsAddressable, hReserved, hEmpty, ih,
                Ne.symm hEmpty]

end Json

end DesignTokens

------------------------------------------------------------
-- Hints of Reachable Nodes
------------------------------------------------------------

namespace DesignTokens

namespace Record

/- A readable record has the hint that its node gives. -/
theorem readHint_of_ofJson
    {node : Json}
    {record : Record}
    (hRecord : ofJson node = .ok record) :
    readHint (node.get? collectionKey) = .ok record.hint := by
  cases node with
  | object ms =>
      rw [ofJson] at hRecord
      split at hRecord
      · simp at hRecord
      · split at hRecord
        · simp at hRecord
        · split at hRecord
          · simp at hRecord
          · next hHint =>
              cases hRecord
              exact hHint
  | _ => simp [ofJson] at hRecord

end Record

namespace Json

/- No node below the root gives a hint that names a layer. -/
def HintFree (root : Json) : Prop :=
  ∀ path node c,
    path ≠ [] →
      reach? path root = some node →
        Record.readHint (node.get? Record.collectionKey) ≠
          .ok (some c)

/- Records below a root without hints have none. -/
theorem HintFree.record_hint
    {root node : Json}
    {path : List String}
    {record : Record}
    (hFree : root.HintFree)
    (hPath : path ≠ [])
    (hNode : reach? path root = some node)
    (hRecord : Record.ofJson node = .ok record) :
    record.hint = none := by
  cases hHint : record.hint with
  | none => rfl
  | some c =>
      have hRead := Record.readHint_of_ofJson hRecord
      rw [hHint] at hRead
      exact absurd hRead (hFree path node c hPath hNode)

/- A root is free of hints when its members are. -/
theorem hintFree_of_members
    {root : Json}
    (hMembers :
      ∀ m ∈ root.members,
        ¬ IsReserved m.1 →
          (∀ c,
            Record.readHint (m.2.get? Record.collectionKey) ≠
              .ok (some c))
            ∧ m.2.HintFree) :
    root.HintFree := by
  intro path node c hPath hNode
  cases path with
  | nil => exact absurd rfl hPath
  | cons key keys =>
      rcases reach?_cons_eq_some_iff.mp hNode with
        ⟨hKey, child, hGet, hChild⟩
      rcases hMembers (key, child) (mem_of_lookup hGet) hKey with
        ⟨hHint, hBelow⟩
      cases keys with
      | nil =>
          cases hChild
          exact hHint c
      | cons _ _ => exact hBelow _ node c (by simp) hChild

end Json

end DesignTokens
