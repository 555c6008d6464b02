import DesignTokens.Proofs.Emission.Walk
import DesignTokens.Proofs.Reference.Lookup

/-
  This file proves that no layer depends on the layers above it,
  as long as no hint is in force.

  Key theorems include:
    * `Store.emit_agreesOn_visible`
    * `Store.layering_one_way`
    * `Store.primitives_alone`

  The layers that a layer sees decide what its values resolve
  to, and with it the section, the warnings and the deprecated
  tokens of the layer.  A hint opens all layers, to primitives
  too.  Primitives are emitted as they would be alone unless one
  of them, under a hint, lands in another layer.
-/

------------------------------------------------------------
-- Layers without Hints
------------------------------------------------------------

namespace DesignTokens

namespace Store

variable {store store' : Store}
variable {c top : Collection}

/- Records of leaves have no hint in a layer without hints. -/
theorem hint_eq_none_of_hintFree
    {leaf : Leaf}
    {record : Record}
    (hFree : (store.tree c).HintFree)
    (hLeaf : leaf ∈ store.leaves c)
    (hRecord : leaf.record = .ok record) :
    record.hint = none := by
  rw [mem_leaves_iff] at hLeaf
  rw [Leaf.record_eq] at hRecord
  exact
    hFree.record_hint hLeaf.path_ne_nil hLeaf.reach?_eq hRecord

/- So no hint is in force when they are resolved. -/
theorem unhinted_record_of_hintFree
    {limit : Nat}
    {leaf : Leaf}
    {record : Record}
    (hFree : ∀ d ∈ c.visible, (store.tree d).HintFree)
    (hLeaf : leaf ∈ store.leaves c)
    (hRecord : leaf.record = .ok record) :
    store.Unhinted limit (record.position c) := by
  apply unhinted_of_hintFree hFree
  exact
    hint_eq_none_of_hintFree (hFree c c.self_mem_visible) hLeaf
      hRecord

/- Without hints a layer is emitted by what it sees. -/
theorem emit_agreesOn_visible
    {options : EmitOptions}
    (hTrees : ∀ d ∈ c.visible, store'.tree d = store.tree d)
    (hFree : ∀ d ∈ c.visible, (store.tree d).HintFree) :
    (store'.emit options).AgreesOn (store.emit options) c := by
  apply emit_agreesOn (hTrees c c.self_mem_visible)
  intro leaf hLeaf
  apply draft_congr
  intro record hRecord
  have hUnhinted :
      store.Unhinted options.limit (record.position c) :=
    unhinted_record_of_hintFree hFree hLeaf hRecord
  exact hUnhinted.resolve_eq hTrees

/-
  Layering is one-way without hints.  When two stores have the
  same trees in all layers that a layer sees, and none of these
  trees gives a hint, then both emit all these layers alike, and
  a value of the layer resolves alike.
-/
theorem layering_one_way
    (hTrees : ∀ c ∈ top.visible, store'.tree c = store.tree c)
    (hFree : ∀ c ∈ top.visible, (store.tree c).HintFree) :
    (∀ options, ∀ c ∈ top.visible,
        (store'.emit options).AgreesOn (store.emit options) c)
      ∧ ∀ limit raw,
          store'.resolve limit raw ⟨top, none⟩ =
            store.resolve limit raw ⟨top, none⟩ := by
  constructor
  · intro options c hVisible
    apply emit_agreesOn_visible
    · intro d hMem
      exact hTrees d (Collection.visible_trans hVisible hMem)
    · intro d hMem
      exact hFree d (Collection.visible_trans hVisible hMem)
  · intro limit raw
    have hUnhinted : store.Unhinted limit ⟨raw, ⟨top, none⟩⟩ :=
      unhinted_of_hintFree hFree rfl
    exact hUnhinted.resolve_eq hTrees

/-
  A primitive and a semantic token that points at it, below a
  component layer.
-/
def linkedBelow
    (component : Document)
    (hObject : component.root.IsObject) : Store where
  documents :=
    { primitives :=
        { root := .object [
            ("brand", .object [("$value", .text "#00f")])]
          uniqueKeys := by
            simp [Json.UniqueKeys, Json.UniqueKeysMembers] }
      semantic :=
        { root := .object [
            ("accent", .object [("$value", .text "\x7bbrand\x7d")])]
          uniqueKeys := by
            simp [Json.UniqueKeys, Json.UniqueKeysMembers] }
      component := component }
  isObject c := by
    cases c with
    | primitives => rfl
    | semantic => rfl
    | component => exact hObject

/- A component layer with a token of the primitive's path. -/
def shadowingComponent : Document where
  root := .object [("brand", .object [("$value", .text "#f00")])]
  uniqueKeys := by simp [Json.UniqueKeys, Json.UniqueKeysMembers]

/- The semantic layer does not see the component layer change. -/
theorem linkedBelow_one_way :
    let store := linkedBelow .empty rfl
    let store' := linkedBelow shadowingComponent rfl
    store'.tree .component ≠ store.tree .component
      ∧ (∀ options,
          (store'.emit options).AgreesOn (store.emit options)
            .semantic)
      ∧ ∀ limit raw,
          store'.resolve limit raw ⟨.semantic, none⟩ =
            store.resolve limit raw ⟨.semantic, none⟩ := by
  intro store store'
  have hTrees : ∀ c ∈ Collection.semantic.visible,
      store'.tree c = store.tree c := by
    intro c hMem
    cases c with
    | primitives => rfl
    | semantic => rfl
    | component => exact absurd hMem (by decide)
  have hToken (key value : String) :
      (Json.object [
        (key, .object [("$value", .text value)])]).HintFree := by
    apply Json.hintFree_of_members
    intro m hMem _
    cases List.mem_singleton.mp hMem
    have hNone :
        (Json.object [("$value", .text value)]).get?
          Record.collectionKey = none :=
      rfl
    refine ⟨by simp [hNone, Record.readHint], ?_⟩
    apply Json.hintFree_of_members
    intro m hMem hKey
    cases List.mem_singleton.mp hMem
    exact absurd (by decide : IsReserved "$value") hKey
  have hFree : ∀ c ∈ Collection.semantic.visible,
      (store.tree c).HintFree := by
    intro c hMem
    cases c with
    | primitives => exact hToken _ _
    | semantic => exact hToken _ _
    | component => exact absurd hMem (by decide)
  have hOneWay := layering_one_way hTrees hFree
  refine ⟨?_, fun options => hOneWay.1 options _ (by decide), hOneWay.2⟩
  simp [store, store', tree, linkedBelow, Layers.get,
    shadowingComponent, Document.empty]

end Store

end DesignTokens

------------------------------------------------------------
-- Primitives Alone
------------------------------------------------------------

namespace DesignTokens

namespace Store

/- Documents that are all objects make a store. -/
theorem ofDocuments_eq_ok
    {documents : Layers Document}
    (hObjects : ∀ c, (documents.get c).root.IsObject) :
    ofDocuments documents = .ok ⟨documents, hObjects⟩ := by
  unfold ofDocuments
  split
  · next e hBad =>
      rcases List.exists_of_findSome?_eq_some hBad with
        ⟨c, -, hRoot⟩
      simp [hObjects c] at hRoot
  · rfl

/- The store of the same primitives and nothing else. -/
def primitivesAlone (store : Store) : Store where
  documents := primitivesOnly store.documents.primitives
  isObject c := by
    cases c with
    | primitives => exact store.isObject .primitives
    | semantic => rfl
    | component => rfl

variable {store : Store}
variable {limit : Nat}
variable {start : Position}

theorem tree_primitivesAlone (store : Store) :
    store.primitivesAlone.tree .primitives =
      store.tree .primitives :=
  rfl

/- Nothing is there alone that is not there with other layers. -/
theorem node?_primitivesAlone_eq_none
    {l : Location}
    (hNone : store.node? l = none) :
    store.primitivesAlone.node? l = none := by
  obtain ⟨c, path⟩ := l
  have hPath : path ≠ [] := by
    rintro rfl
    simp [node?, Json.descend?] at hNone
  have hEmpty : Document.empty.root.descend? path = none := by
    apply Json.descend?_eq_none _ hPath
    simp [Document.empty, Json.keys, Json.members]
  cases c with
  | primitives => exact hNone
  | semantic => exact hEmpty
  | component => exact hEmpty

/- A resolution that stays in primitives does not need others. -/
theorem StaysIn.resolve_primitivesAlone
    {raw : Json}
    {scope : Scope}
    (hStays : store.StaysIn limit ⟨raw, scope⟩ .primitives) :
    store.primitivesAlone.resolve limit raw scope =
      store.resolve limit raw scope := by
  apply resolve_congr
  intro r lookup hLookup
  apply step_eq_of_lands
  · intro l _ hNone
    exact node?_primitivesAlone_eq_none hNone
  · intro l node hLands
    have hLayer : l.collection = .primitives :=
      hStays l ⟨r, lookup, node, hLookup, hLands⟩
    refine ⟨node, ?_, rfl⟩
    rw [← hLands.node?_eq, node?, node?, hLayer]
    rfl

/- Without hints a primitive never leaves its layer. -/
theorem Unhinted.staysIn_primitives
    (hLayer : start.scope.layer = .primitives)
    (hUnhinted : store.Unhinted limit start) :
    store.StaysIn limit start .primitives := by
  intro l hVisits
  have hVisible := hUnhinted.collection_mem_visible hVisits
  rw [hLayer] at hVisible
  exact List.mem_singleton.mp hVisible

/- The record of a leaf is resolved within its layer. -/
def LeafStays
    (store : Store)
    (limit : Nat)
    (c : Collection)
    (leaf : Leaf) : Prop :=
  ∀ record,
    leaf.record = .ok record →
      store.StaysIn limit (record.position c) c

/- So its draft does not need other layers. -/
theorem LeafStays.draft_primitivesAlone
    {options : EmitOptions}
    {leaf : Leaf}
    (hStays : store.LeafStays options.limit .primitives leaf) :
    store.primitivesAlone.draft options .primitives leaf =
      store.draft options .primitives leaf := by
  apply draft_congr
  intro record hRecord
  have hResolve := (hStays record hRecord).resolve_primitivesAlone
  exact hResolve

/-
  Primitives are emitted as they would be alone, unless one of
  them lands in another layer, which takes a hint.
-/
theorem primitives_alone (store : Store) :
    ofDocuments (primitivesOnly store.documents.primitives) =
        .ok store.primitivesAlone
      ∧ (∀ limit raw scope,
          store.StaysIn limit ⟨raw, scope⟩ .primitives →
            store.primitivesAlone.resolve limit raw scope =
              store.resolve limit raw scope)
      ∧ (∀ options path,
          (∀ leaf ∈ store.leaves .primitives,
            options.namer.identifier leaf.path .primitives =
                options.namer.identifier path .primitives →
              store.LeafStays options.limit .primitives leaf) →
          ∀ fate,
            (store.primitivesAlone.emit options).Reports
                .primitives path fate ↔
              (store.emit options).Reports .primitives path fate)
      ∧ (∀ options,
          (∀ leaf ∈ store.leaves .primitives,
            store.LeafStays options.limit .primitives leaf) →
          (store.primitivesAlone.emit options).AgreesOn
            (store.emit options) .primitives)
      ∧ (∀ limit start,
          start.scope.layer = .primitives →
            store.Unhinted limit start →
              store.StaysIn limit start .primitives)
      ∧ ((store.tree .primitives).HintFree →
          ∀ limit, ∀ leaf ∈ store.leaves .primitives,
            store.LeafStays limit .primitives leaf) := by
  refine ⟨ofDocuments_eq_ok _, ?_, ?_, ?_, ?_, ?_⟩
  · intro limit raw scope hStays
    exact hStays.resolve_primitivesAlone
  · intro options path hStays fate
    apply reports_congr store.tree_primitivesAlone
    intro leaf hLeaf hSame
    exact (hStays leaf hLeaf hSame).draft_primitivesAlone
  · intro options hStays
    apply emit_agreesOn store.tree_primitivesAlone
    intro leaf hLeaf
    exact (hStays leaf hLeaf).draft_primitivesAlone
  · intro limit start hLayer hUnhinted
    exact hUnhinted.staysIn_primitives hLayer
  · intro hFree limit leaf hLeaf record hRecord
    have hUnhinted :
        store.Unhinted limit (record.position .primitives) := by
      apply unhinted_record_of_hintFree _ hLeaf hRecord
      intro d hMem
      rw [List.mem_singleton.mp hMem]
      exact hFree
    exact hUnhinted.staysIn_primitives rfl

/- A primitive with a hint that points at a semantic token. -/
def hintedPrimitive : Store where
  documents :=
    { primitives :=
        { root := .object [
            ("a", .object [
              ("$value", .text "\x7bb\x7d"),
              ("$collection", .text "semantic")])]
          uniqueKeys := by
            simp [Json.UniqueKeys, Json.UniqueKeysMembers] }
      semantic :=
        { root := .object [("b", .object [("$value", .text "#fff")])]
          uniqueKeys := by
            simp [Json.UniqueKeys, Json.UniqueKeysMembers] }
      component := .empty }
  isObject c := by cases c <;> rfl

/- It is emitted with the semantic layer and dropped without. -/
theorem hintedPrimitive_not_alone :
    ofDocuments (primitivesOnly hintedPrimitive.documents.primitives)
        = .ok hintedPrimitive.primitivesAlone
      ∧ (hintedPrimitive.emit ⟨⟨"token"⟩, 10⟩).entries.primitives ≠
          (hintedPrimitive.primitivesAlone.emit
            ⟨⟨"token"⟩, 10⟩).entries.primitives
      ∧ (hintedPrimitive.emit ⟨⟨"token"⟩, 10⟩).warningsOf
            .primitives ≠
          (hintedPrimitive.primitivesAlone.emit
            ⟨⟨"token"⟩, 10⟩).warningsOf .primitives := by
  refine ⟨ofDocuments_eq_ok _, ?_, ?_⟩
  · decide
  · decide

/- A primitive whose hint names its own layer. -/
def ownHint : Store where
  documents :=
    { primitives :=
        { root := .object [
            ("a", .object [
              ("$value", .text "\x7bb\x7d"),
              ("$collection", .text "primitives")]),
            ("b", .object [("$value", .text "#000")])]
          uniqueKeys := by
            simp [Json.UniqueKeys, Json.UniqueKeysMembers] }
      semantic :=
        { root := .object [("b", .object [("$value", .text "#fff")])]
          uniqueKeys := by
            simp [Json.UniqueKeys, Json.UniqueKeysMembers] }
      component := .empty }
  isObject c := by cases c <;> rfl

/- It stays in its layer, so its section is the one alone. -/
theorem ownHint_alone :
    (ownHint.primitivesAlone.emit ⟨⟨"token"⟩, 10⟩).AgreesOn
      (ownHint.emit ⟨⟨"token"⟩, 10⟩) .primitives := by
  apply ownHint.primitives_alone.2.2.2.1
  intro leaf hLeaf record hRecord l hVisits
  have hLeaves : leaf ∈ [
      (⟨["a"], .object [
        ("$value", .text "\x7bb\x7d"),
        ("$collection", .text "primitives")]⟩ : Leaf),
      ⟨["b"], .object [("$value", .text "#000")]⟩] :=
    hLeaf
  rcases List.mem_cons.mp hLeaves with rfl | hLeaves
  · cases hRecord
    have hStep :
        ownHint.step ⟨"b"⟩ ⟨.primitives, some .primitives⟩ =
          .ok
            ⟨⟨.primitives, ["b"]⟩, .text "#000",
              ⟨.primitives, some .primitives⟩⟩ :=
      rfl
    rcases hVisits.eq_or_later rfl hStep with rfl | hLater
    · rfl
    · exact absurd hLater (not_visits_of_reference?_eq_none rfl l)
  · cases List.mem_singleton.mp hLeaves
    cases hRecord
    exact absurd hVisits (not_visits_of_reference?_eq_none rfl l)

end Store

end DesignTokens
