import DesignTokens.Proofs.Emission.Walk

/-
  This file tells which leaves a document lists, and in which
  order.

  Key definitions include:
    * `Json.EndsWalk`
    * `Json.PassesNamespaces`
    * `Json.Precedes`

  Key theorems include:
    * `Json.leavesBelow_pairwise`
    * `Json.Precedes.not_isPrefix`
    * `Document.leaves_exact`

  One path comes before another when the two part at a node that
  has the key of the one first.  Leaves are listed in this order,
  so no path of a leaf begins with the path of another.
-/

------------------------------------------------------------
-- Ends of the Walk
------------------------------------------------------------

namespace DesignTokens

namespace Json

/-
  What the walk ends at: an object with a value, an object that
  has a type instead and reserved keys only, or no object.
-/
inductive EndsWalk (node : Json) : Prop
| record :
    node.IsObject →
      (node.get? Record.valueKey).isSome = true →
        EndsWalk node
| stub :
    node.IsObject →
      node.get? Record.valueKey = none →
        (node.get? Record.typeKey).isSome = true →
          (∀ key ∈ node.keys, IsReserved key) →
            EndsWalk node
| bare :
    ¬ node.IsObject →
      EndsWalk node

/- Every node strictly inside a path is an object without a value. -/
def PassesNamespaces
    (root : Json)
    (path : List String) : Prop :=
  ∀ above below node,
    path = above ++ below →
      above ≠ [] →
        below ≠ [] →
          reach? above root = some node →
            node.IsObject ∧ node.get? Record.valueKey = none

/- The walk ends at everything but namespaces. -/
theorem endsWalk_iff
    {node : Json} :
    node.EndsWalk ↔ ¬ node.IsNamespace := by
  constructor
  · rintro hEnd ⟨hObject, hNotRecord, hNotStub⟩
    cases hEnd with
    | record _ hValue => exact hNotRecord hValue
    | stub _ _ hType hKeys => exact hNotStub ⟨hKeys, hType⟩
    | bare hNot => exact hNot hObject
  · intro hNot
    by_cases hObject : node.IsObject
    · by_cases hRecord : Record.IsRecord node
      · exact EndsWalk.record hObject hRecord
      · have hStub : node.IsStub :=
          Classical.not_not.mp fun hNotStub =>
            hNot ⟨hObject, hRecord, hNotStub⟩
        have hValue : node.get? Record.valueKey = none := by
          simpa [Record.IsRecord] using hRecord
        exact EndsWalk.stub hObject hValue hStub.2 hStub.1
    · exact EndsWalk.bare hObject

/- Two paths in turn lead on from the end of the first. -/
theorem reach?_append
    (above below : List String)
    (node : Json) :
    reach? (above ++ below) node =
      (reach? above node).bind (reach? below) := by
  induction above generalizing node with
  | nil => rfl
  | cons key keys ih =>
      simp only [List.cons_append, reach?]
      split
      · rfl
      · cases node.get? key with
        | none => rfl
        | some child => exact ih child

/- What a path leads on from is an object. -/
theorem isObject_of_reach?
    {node target : Json}
    {path : List String}
    (hPath : path ≠ [])
    (hTarget : reach? path node = some target) :
    node.IsObject := by
  cases path with
  | nil => exact absurd rfl hPath
  | cons key keys =>
      rcases reach?_cons_eq_some_iff.mp hTarget with ⟨-, child, hGet, -⟩
      exact isObject_of_get? hGet

/- A path to a node passes namespaces unless a record is above it. -/
theorem passesNamespaces_iff
    {root target : Json}
    {path : List String}
    (hTarget : reach? path root = some target) :
    root.PassesNamespaces path ↔ ¬ root.RecordAbove path := by
  constructor
  · rintro hPasses ⟨above, below, node, hPath, hAbove, hBelow, hNode,
      hRecord⟩
    have hValue := (hPasses above below node hPath hAbove hBelow hNode).2
    simp [Record.IsRecord, hValue] at hRecord
  · intro hNot above below node hPath hAbove hBelow hNode
    constructor
    · rw [hPath, reach?_append, hNode] at hTarget
      exact isObject_of_reach? hBelow hTarget
    · by_contra hValue
      refine hNot ⟨above, below, node, hPath, hAbove, hBelow, hNode, ?_⟩
      exact Option.isSome_iff_ne_none.mpr hValue

end Json

end DesignTokens

------------------------------------------------------------
-- The Order of a Document
------------------------------------------------------------

namespace DesignTokens

namespace Json

/-
  A path comes before another one: they part at a node that has
  the key of the first before the key of the second.
-/
inductive Precedes : Json → List String → List String → Prop
| part
    {node : Json}
    {key key' : String}
    {keys keys' : List String} :
    [key, key'].Sublist node.keys →
      Precedes node (key :: keys) (key' :: keys')
| under
    {node child : Json}
    {key : String}
    {keys keys' : List String} :
    node.get? key = some child →
      Precedes child keys keys' →
        Precedes node (key :: keys) (key :: keys')

/- The same for paths that go on from the path of the node. -/
def PrecedesFrom
    (path : List String)
    (node : Json)
    (p q : List String) : Prop :=
  ∃ keys keys',
    p = path ++ keys ∧ q = path ++ keys' ∧ node.Precedes keys keys'

/- Of two such paths neither begins with the other. -/
theorem Precedes.not_isPrefix
    {node : Json}
    {p q : List String}
    (hPrecedes : node.Precedes p q)
    (hUnique : node.UniqueKeys) :
    ¬ p <+: q ∧ ¬ q <+: p := by
  induction hPrecedes with
  | @part node key key' keys keys' hKeys =>
      have hNodup : [key, key'].Nodup :=
        hUnique.keys_nodup.sublist hKeys
      have hNe : key ≠ key' := by simpa using hNodup
      simp [List.cons_prefix_cons, hNe, hNe.symm]
  | under hGet _ ih =>
      have hChild := hUnique.of_mem_members (mem_of_lookup hGet)
      simpa [List.cons_prefix_cons] using ih hChild

/- A member in front does not change the order of the others. -/
theorem Precedes.cons_member
    {m : String × Json}
    {ms : List (String × Json)}
    {p q : List String}
    (hNew : m.1 ∉ ms.map Prod.fst)
    (hPrecedes : (object ms).Precedes p q) :
    (object (m :: ms)).Precedes p q := by
  cases hPrecedes with
  | part hKeys => exact Precedes.part (hKeys.cons m.1)
  | @under _ child key _ _ hGet hBelow =>
      have hOther : (key == m.1) = false := by
        apply beq_eq_false_iff_ne.mpr
        rintro rfl
        exact hNew (List.mem_map.mpr ⟨_, mem_of_lookup hGet, rfl⟩)
      have hGet' : (object (m :: ms)).get? key = some child := by
        rw [get?, members, List.lookup_cons, hOther]
        exact hGet
      exact Precedes.under hGet' hBelow

mutual

/- The leaves at and below a node are listed in its order. -/
theorem leavesAt_pairwise :
    (node : Json) →
      node.UniqueKeys →
        ∀ path,
          ((leavesAt path node).map Leaf.path).Pairwise
            (node.PrecedesFrom path)
| object ms, hUnique, path => by
    rw [leavesAt]
    split
    · exact leavesBelow_pairwise ms hUnique.1 hUnique.2 path
    · exact List.pairwise_singleton _ path
| null, _, path => List.pairwise_singleton _ path
| boolean _, _, path => List.pairwise_singleton _ path
| number _, _, path => List.pairwise_singleton _ path
| text _, _, path => List.pairwise_singleton _ path
| array _, _, path => List.pairwise_singleton _ path

theorem leavesBelow_pairwise :
    (ms : List (String × Json)) →
      (ms.map Prod.fst).Nodup →
        UniqueKeysMembers ms →
          ∀ path,
            ((leavesBelow path ms).map Leaf.path).Pairwise
              ((object ms).PrecedesFrom path)
| [], _, _, _ => List.Pairwise.nil
| (key, node) :: ms, hNodup, hUnique, path => by
    rw [List.map_cons, List.nodup_cons] at hNodup
    have hLater :
        ((leavesBelow path ms).map Leaf.path).Pairwise
          ((object ((key, node) :: ms)).PrecedesFrom path) := by
      apply (leavesBelow_pairwise ms hNodup.2 hUnique.2 path).imp
      rintro p q ⟨keys, keys', hP, hQ, hPrecedes⟩
      exact ⟨keys, keys', hP, hQ, hPrecedes.cons_member hNodup.1⟩
    rw [leavesBelow]
    split
    · exact hLater
    · rw [List.map_append, List.pairwise_append]
      refine ⟨?member, hLater, ?across⟩
      case member =>
        have hGet : (object ((key, node) :: ms)).get? key = some node := by
          simp [get?, members]
        apply (leavesAt_pairwise node hUnique.1 (path ++ [key])).imp
        rintro p q ⟨keys, keys', rfl, rfl, hPrecedes⟩
        exact
          ⟨key :: keys, key :: keys', by simp, by simp,
            Precedes.under hGet hPrecedes⟩
      case across =>
        -- the later leaves lie below keys that come later
        intro p hHead q hTail
        rcases List.mem_map.mp hHead with ⟨leaf, hLeaf, rfl⟩
        rcases List.mem_map.mp hTail with ⟨other, hOther, rfl⟩
        rw [mem_leavesAt_iff node hUnique.1] at hLeaf
        rw [mem_leavesBelow_iff ms hUnique.2] at hOther
        rcases hLeaf with ⟨keys, hPath, -⟩
        rcases hOther with ⟨key', keys', child, hPath', -, hMem, -⟩
        have hKey' : key' ∈ ms.map Prod.fst :=
          List.mem_map.mpr ⟨_, hMem, rfl⟩
        refine
          ⟨key :: keys, key' :: keys', by simp [hPath], hPath',
            Precedes.part ?_⟩
        exact (List.singleton_sublist.mpr hKey').cons_cons key

end

/- The leaves of a document are listed in its order. -/
theorem leaves_pairwise
    {root : Json}
    (hUnique : root.UniqueKeys) :
    (root.leaves.map Leaf.path).Pairwise root.Precedes := by
  have hRoot (p q : List String)
      (hPrecedes : (object root.members).PrecedesFrom [] p q) :
      root.Precedes p q := by
    rcases hPrecedes with ⟨keys, keys', rfl, rfl, hPrecedes⟩
    cases hPrecedes with
    | part hKeys => exact Precedes.part hKeys
    | under hGet hBelow => exact Precedes.under hGet hBelow
  exact
    (leavesBelow_pairwise root.members hUnique.keys_nodup
      hUnique.members []).imp (hRoot _ _)

/- No path of a leaf begins with the path of another. -/
theorem leaves_not_isPrefix
    {root : Json}
    (hUnique : root.UniqueKeys) :
    (root.leaves.map Leaf.path).Pairwise fun p q =>
      ¬ p <+: q ∧ ¬ q <+: p :=
  (leaves_pairwise hUnique).imp fun hPrecedes =>
    hPrecedes.not_isPrefix hUnique

/- So no two leaves have one path. -/
theorem leaves_path_nodup
    {root : Json}
    (hUnique : root.UniqueKeys) :
    (root.leaves.map Leaf.path).Nodup := by
  apply (leaves_not_isPrefix hUnique).imp
  rintro p _ hApart rfl
  exact hApart.1 (List.prefix_refl p)

end Json

/- No two leaves of a layer have one path. -/
theorem Store.leaves_path_nodup
    (store : Store)
    (c : Collection) :
    ((store.leaves c).map Leaf.path).Nodup :=
  Json.leaves_path_nodup (store.documents.get c).uniqueKeys

end DesignTokens

------------------------------------------------------------
-- The Leaves of a Document
------------------------------------------------------------

namespace DesignTokens

namespace Json

/-
  The leaves are the nodes that end the walk at the paths that
  pass namespaces only.
-/
theorem mem_leaves_iff_endsWalk
    {root : Json}
    (hUnique : root.UniqueKeys)
    (leaf : Leaf) :
    leaf ∈ root.leaves ↔
      leaf.path ≠ []
        ∧ reach? leaf.path root = some leaf.node
        ∧ root.PassesNamespaces leaf.path
        ∧ leaf.node.EndsWalk := by
  rw [mem_leaves_iff hUnique, leafBelow_iff, ← endsWalk_iff]
  refine and_congr_right fun _ => and_congr_right fun hReach => ?_
  rw [passesNamespaces_iff hReach, and_comm]

/- A root that is no object has no leaves. -/
theorem leaves_eq_nil
    {root : Json}
    (hNot : ¬ root.IsObject) :
    root.leaves = [] := by
  cases root with
  | object ms => exact absurd rfl hNot
  | _ => rfl

end Json

/-
  A document lists, in its order and each once, the nodes that
  end the walk at the paths that pass namespaces only.  No path
  begins with another one, and a root that is no object has no
  leaves.  Each leaf is read as its node is, and references find
  the node unless the path has an empty key.
-/
theorem Document.leaves_exact (doc : Document) :
    (∀ leaf,
        leaf ∈ doc.root.leaves ↔
          leaf.path ≠ []
            ∧ Json.reach? leaf.path doc.root = some leaf.node
            ∧ doc.root.PassesNamespaces leaf.path
            ∧ leaf.node.EndsWalk)
      ∧ (doc.root.leaves.map Leaf.path).Pairwise doc.root.Precedes
      ∧ (doc.root.leaves.map Leaf.path).Nodup
      ∧ (doc.root.leaves.map Leaf.path).Pairwise
          (fun p q => ¬ p <+: q ∧ ¬ q <+: p)
      ∧ (¬ doc.root.IsObject → doc.root.leaves = [])
      ∧ ∀ leaf ∈ doc.root.leaves,
          leaf.record = Record.ofJson leaf.node
            ∧ ∀ (store : Store) (c : Collection),
                store.documents.get c = doc →
                  (store.node? ⟨c, leaf.path⟩ = some leaf.node ↔
                    "" ∉ leaf.path) := by
  refine ⟨Json.mem_leaves_iff_endsWalk doc.uniqueKeys,
    Json.leaves_pairwise doc.uniqueKeys,
    Json.leaves_path_nodup doc.uniqueKeys,
    Json.leaves_not_isPrefix doc.uniqueKeys, Json.leaves_eq_nil, ?_⟩
  intro leaf hLeaf
  refine ⟨leaf.record_eq, ?_⟩
  rintro store c rfl
  exact Store.node?_leaf_iff hLeaf

/- A record ends the walk, and so does a type without a value. -/
example :
    (Json.leaves (.object [
        ("$type", .text "color"),
        ("", .object [("$value", .null), ("inner", .text "#000")]),
        ("stub", .object [("$type", .null), ("$note", .null)]),
        ("group", .object [
          ("$type", .null), ("b", .null), ("a", .array [])])])).map
      Leaf.path =
        [[""], ["stub"], ["group", "b"], ["group", "a"]] := by
  decide

end DesignTokens
