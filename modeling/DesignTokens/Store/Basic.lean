import DesignTokens.Json.Document
import DesignTokens.Store.Path

/-
  This file defines the store, the documents of the three
  layers that one run works on.

  Key definitions include:
    * `Location`
    * `Store`
    * `Store.node?`
    * `Store.ofDocuments`
-/

------------------------------------------------------------
-- Locations
------------------------------------------------------------

namespace DesignTokens

/- A place in the store: a layer and a path of keys. -/
structure Location where
  collection : Collection
  path : List String
deriving DecidableEq, Repr

end DesignTokens

------------------------------------------------------------
-- The Store
------------------------------------------------------------

namespace DesignTokens

/- The documents of the three layers, all of them objects. -/
structure Store where
  documents : Layers Document
  isObject : ∀ c, (documents.get c).root.IsObject

/- The root of a document is not an object. -/
structure RootError where
  collection : Collection
  found : Json.Kind
deriving DecidableEq, Repr

namespace Store

/- The root of a layer's document. -/
def tree
    (store : Store)
    (c : Collection) : Json :=
  (store.documents.get c).root

/- The node at a location. -/
def node?
    (store : Store)
    (l : Location) : Option Json :=
  (store.tree l.collection).descend? l.path

/- The first layer whose root is not an object. -/
def badRoot?
    (documents : Layers Document) : Option RootError :=
  Collection.all.findSome? fun c =>
    let root := (documents.get c).root
    if root.IsObject then none else some ⟨c, root.kind⟩

/- Without a bad root every document is an object. -/
theorem isObject_of_badRoot?
    {documents : Layers Document}
    (h : badRoot? documents = none)
    (c : Collection) :
    (documents.get c).root.IsObject := by
  unfold badRoot? at h
  rw [List.findSome?_eq_none_iff] at h
  have hc := h c (Collection.mem_all c)
  by_cases hObject : (documents.get c).root.IsObject
  · exact hObject
  · simp [hObject] at hc

/-
  The store of three documents, or the first layer whose root is
  not an object.
-/
def ofDocuments
    (documents : Layers Document) : Except RootError Store :=
  match h : badRoot? documents with
  | some e => .error e
  | none => .ok ⟨documents, isObject_of_badRoot? h⟩

/- The documents of a store with primitives only. -/
def primitivesOnly (primitives : Document) : Layers Document :=
  ⟨primitives, .empty, .empty⟩

end Store

end DesignTokens
