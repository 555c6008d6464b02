import DesignTokens.Reference.Resolution
import DesignTokens.Emission.Leaf
import DesignTokens.Proofs.Store.Locations
import DesignTokens.Proofs.Store.Reach

/-
  This file edits a single node of a document and tells what
  stays as it was.

  Key definitions include:
    * `Json.editMember`
    * `Json.replaceAt`
    * `Json.Alike`
    * `Store.Edited`

  Key theorems include:
    * `Record.ofJson_editMember`
    * `Json.isNamespace_editMember_iff`
    * `Json.descend?_replaceAt`
    * `Store.Edited.node?_rel`

  An edit keeps the keys of every node above it, and what these
  nodes say of themselves.  So a path to another node leads to
  the same node as before, or to one above the edit, which a
  reference enters as before.
-/

------------------------------------------------------------
-- Editing a Member
------------------------------------------------------------

namespace DesignTokens

namespace Json

/- Apply a function to the member of an object under a key. -/
def editMember
    (key : String)
    (f : Json → Json) : Json → Json
| object ms =>
    object (ms.map fun m => if m.1 = key then (m.1, f m.2) else m)
| node => node

variable {key other : String}
variable {f : Json → Json}

@[simp]
theorem kind_editMember
    (key : String)
    (f : Json → Json)
    (node : Json) :
    (node.editMember key f).kind = node.kind := by
  cases node <;> rfl

@[simp]
theorem keys_editMember
    (key : String)
    (f : Json → Json)
    (node : Json) :
    (node.editMember key f).keys = node.keys := by
  cases node with
  | object ms =>
      simp only [editMember, keys, members, List.map_map]
      apply List.map_congr_left
      intro m _
      simp only [Function.comp_apply]
      split <;> rfl
  | _ => rfl

/- The member under the key is edited. -/
theorem get?_editMember_self
    (key : String)
    (f : Json → Json)
    (node : Json) :
    (node.editMember key f).get? key = (node.get? key).map f := by
  cases node with
  | object ms =>
      simp only [editMember, get?, members]
      induction ms with
      | nil => rfl
      | cons m ms ih =>
          obtain ⟨k, v⟩ := m
          by_cases hKey : k = key
          · simp [hKey]
          · have hOther : (key == k) = false := by
              simpa using Ne.symm hKey
            simp only [List.map_cons, hKey, if_false,
              List.lookup_cons, hOther, ih]
  | _ => rfl

/- All other members stay as they are. -/
theorem get?_editMember_of_ne
    (hOther : other ≠ key)
    (f : Json → Json)
    (node : Json) :
    (node.editMember key f).get? other = node.get? other := by
  cases node with
  | object ms =>
      simp only [editMember, get?, members]
      induction ms with
      | nil => rfl
      | cons m ms ih =>
          obtain ⟨k, v⟩ := m
          by_cases hKey : k = key
          · have hMiss : (other == key) = false := by
              simpa using hOther
            simp only [List.map_cons, hKey, if_true,
              List.lookup_cons, hMiss, ih]
          · simp only [List.map_cons, hKey, if_false,
              List.lookup_cons, ih]
  | _ => rfl

/- What a node says of itself stays as it is. -/
theorem get?_editMember_of_isReserved
    (hKey : ¬ IsReserved key)
    (hOther : IsReserved other)
    (f : Json → Json)
    (node : Json) :
    (node.editMember key f).get? other = node.get? other := by
  apply get?_editMember_of_ne
  rintro rfl
  exact hKey hOther

end Json

namespace Record

variable {key : String}

/- The record of a node does not depend on its other members. -/
theorem ofJson_editMember
    (hKey : ¬ IsReserved key)
    (f : Json → Json)
    (node : Json) :
    ofJson (node.editMember key f) = ofJson node := by
  have hSame (other : String) (hOther : IsReserved other) :=
    Json.get?_editMember_of_isReserved hKey hOther f node
  cases node with
  | object ms =>
      rw [Json.editMember] at hSame ⊢
      unfold ofJson deprecationOf?
      simp only [hSame valueKey (by decide),
        hSame typeKey (by decide), hSame collectionKey (by decide),
        hSame descriptionKey (by decide),
        hSame extensionsKey (by decide)]
  | _ => rfl

theorem isRecord_editMember_iff
    (hKey : ¬ IsReserved key)
    (f : Json → Json)
    (node : Json) :
    IsRecord (node.editMember key f) ↔ IsRecord node := by
  unfold IsRecord
  rw [Json.get?_editMember_of_isReserved hKey (by decide)]

end Record

namespace Json

variable {key : String}

@[simp]
theorem isObject_editMember_iff
    (key : String)
    (f : Json → Json)
    (node : Json) :
    (node.editMember key f).IsObject ↔ node.IsObject := by
  unfold IsObject
  rw [kind_editMember]

theorem isNamespace_editMember_iff
    (hKey : ¬ IsReserved key)
    (f : Json → Json)
    (node : Json) :
    (node.editMember key f).IsNamespace ↔ node.IsNamespace := by
  unfold IsNamespace IsStub
  rw [isObject_editMember_iff, keys_editMember,
    Record.isRecord_editMember_iff hKey,
    get?_editMember_of_isReserved hKey (by decide)]

end Json

end DesignTokens

------------------------------------------------------------
-- Replacing a Node
------------------------------------------------------------

namespace DesignTokens

namespace Json

/- Put another node in the place at the end of a path. -/
def replaceAt : List String → Json → Json → Json
| [], _, new => new
| key :: keys, root, new =>
    root.editMember key fun child => replaceAt keys child new

/-
  Two nodes that are equal or differ below themselves only, so
  that a reference cannot tell them apart.
-/
def Alike (node node' : Json) : Prop :=
  node' = node ∨
    ∃ key f, ¬ IsReserved key ∧ node' = node.editMember key f

/- Whatever a path leads to is alike to itself. -/
theorem Alike.rel_refl
    (found : Option Json) :
    Option.Rel Alike found found := by
  cases found with
  | none => exact Option.Rel.none
  | some _ => exact Option.Rel.some (Or.inl rfl)

/-
  Every path but the edited one leads to a node as before: to
  none, or to one that is alike.
-/
theorem descend?_replaceAt
    {root old new : Json}
    {path other : List String}
    (hOld : reach? path root = some old)
    (hOldKeys : ∀ key ∈ old.keys, IsReserved key)
    (hNewKeys : ∀ key ∈ new.keys, IsReserved key)
    (hOther : other ≠ path) :
    Option.Rel Alike
      (descend? other root)
      (descend? other (root.replaceAt path new)) := by
  induction path generalizing root other with
  | nil =>
      cases hOld
      rw [replaceAt, descend?_eq_none hOldKeys hOther,
        descend?_eq_none hNewKeys hOther]
      exact Option.Rel.none
  | cons key keys ih =>
      rcases reach?_cons_eq_some_iff.mp hOld with
        ⟨hKey, child, hGet, hChild⟩
      cases other with
      | nil => exact Option.Rel.some (Or.inr ⟨key, _, hKey, rfl⟩)
      | cons key' keys' =>
          rw [replaceAt, descend?, descend?]
          split
          · by_cases hSame : key' = key
            · subst hSame
              rw [get?_editMember_self, hGet]
              exact ih hChild fun hKeys => hOther (by rw [hKeys])
            · rw [get?_editMember_of_ne hSame]
              exact Alike.rel_refl _
          · exact Option.Rel.none

end Json

namespace Store

/- References enter nodes that are alike in the same way. -/
theorem enter_alike
    {node node' : Json}
    (hAlike : node.Alike node')
    (r : Reference)
    (hint : Option Collection) :
    enter r hint node' = enter r hint node := by
  rcases hAlike with rfl | ⟨key, f, hKey, rfl⟩
  · rfl
  · unfold enter
    by_cases hObject : node.IsObject
    · simp only [Record.isRecord_editMember_iff hKey,
        Record.ofJson_editMember hKey, Json.isObject_editMember_iff,
        hObject, if_true]
    · cases node with
      | object ms => exact absurd rfl hObject
      | _ => rfl

end Store

end DesignTokens

------------------------------------------------------------
-- Editing a Store
------------------------------------------------------------

namespace DesignTokens

namespace Store

/-
  A store equals another one but for the node at a location,
  which is new.
-/
structure Edited
    (store store' : Store)
    (l : Location)
    (new : Json) : Prop where
  layer :
    store'.tree l.collection =
      (store.tree l.collection).replaceAt l.path new
  others :
    ∀ c ≠ l.collection, store'.tree c = store.tree c

/- All other locations hold a node as before. -/
theorem Edited.node?_rel
    {store store' : Store}
    {l other : Location}
    {old new : Json}
    (hEdited : store.Edited store' l new)
    (hOld : (store.tree l.collection).reach? l.path = some old)
    (hOldKeys : ∀ key ∈ old.keys, IsReserved key)
    (hNewKeys : ∀ key ∈ new.keys, IsReserved key)
    (hOther : other ≠ l) :
    Option.Rel Json.Alike
      (store.node? other) (store'.node? other) := by
  obtain ⟨c, path⟩ := other
  unfold node?
  by_cases hLayer : c = l.collection
  · subst hLayer
    rw [hEdited.layer]
    apply Json.descend?_replaceAt hOld hOldKeys hNewKeys
    rintro rfl
    exact hOther rfl
  · rw [hEdited.others c hLayer]
    exact Json.Alike.rel_refl _

end Store

end DesignTokens
