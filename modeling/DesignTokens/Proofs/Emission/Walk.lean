import DesignTokens.Proofs.Emission.Report
import DesignTokens.Proofs.Store.Locations
import DesignTokens.Proofs.Store.Reach

/-
  This file tells which nodes of a document are its leaves, and
  which records an emission therefore reports.

  Key definitions include:
    * `Json.LeafAt`
    * `Json.RecordAbove`

  Key theorems include:
    * `Json.mem_leaves_iff`
    * `Json.leafBelow_iff`
    * `Store.reports_record_iff`
    * `Store.nestedRecord_unreported`

  The walk passes through namespaces and ends at everything
  else.  A record is therefore a leaf unless another record
  stands above it.  References do pass through records, so they
  reach tokens that the walk does not.
-/

------------------------------------------------------------
-- Leaves by Their Paths
------------------------------------------------------------

namespace DesignTokens

namespace Json

/-
  A path leads from a node through namespaces, itself among
  them, to one that is none.
-/
inductive LeafAt : Json → List String → Json → Prop
| here {node : Json} :
    ¬ node.IsNamespace →
      LeafAt node [] node
| under
    {node child target : Json}
    {key : String}
    {keys : List String} :
    node.IsNamespace →
      ¬ IsReserved key →
        node.get? key = some child →
          LeafAt child keys target →
            LeafAt node (key :: keys) target

/- A path leads from the root to a leaf, whatever the root is. -/
def LeafBelow
    (root : Json)
    (path : List String)
    (target : Json) : Prop :=
  ∃ key keys child,
    path = key :: keys
      ∧ ¬ IsReserved key
      ∧ root.get? key = some child
      ∧ child.LeafAt keys target

/- A path of one key or more begins at a namespace. -/
theorem leafAt_cons_iff
    {node target : Json}
    {key : String}
    {keys : List String} :
    node.LeafAt (key :: keys) target ↔
      node.IsNamespace ∧ node.LeafBelow (key :: keys) target := by
  constructor
  · intro hLeaf
    cases hLeaf with
    | under hNamespace hKey hGet hChild =>
        exact ⟨hNamespace, key, keys, _, rfl, hKey, hGet, hChild⟩
  · rintro ⟨hNamespace, _, _, child, hPath, hKey, hGet, hChild⟩
    cases hPath
    exact LeafAt.under hNamespace hKey hGet hChild

/- Below the root a path goes on from the member of its key. -/
theorem leafBelow_cons_iff
    {root child target : Json}
    {key : String}
    {keys : List String}
    (hKey : ¬ IsReserved key)
    (hGet : root.get? key = some child) :
    root.LeafBelow (key :: keys) target ↔
      child.LeafAt keys target := by
  simp [LeafBelow, hKey, hGet]

/- From a namespace a path leads to a leaf below. -/
theorem leafAt_iff_of_isNamespace
    {node target : Json}
    {path : List String}
    (hNamespace : node.IsNamespace) :
    node.LeafAt path target ↔ node.LeafBelow path target := by
  constructor
  · intro hLeaf
    cases hLeaf with
    | here hNot => exact absurd hNamespace hNot
    | under _ hKey hGet hChild =>
        exact ⟨_, _, _, rfl, hKey, hGet, hChild⟩
  · intro hBelow
    rcases hBelow with ⟨key, keys, child, rfl, hKey, hGet, hChild⟩
    exact LeafAt.under hNamespace hKey hGet hChild

/- Any other node is itself the only leaf. -/
theorem leafAt_iff_of_not_isNamespace
    {node target : Json}
    {path : List String}
    (hNot : ¬ node.IsNamespace) :
    node.LeafAt path target ↔ path = [] ∧ target = node := by
  constructor
  · intro hLeaf
    cases hLeaf with
    | here _ => exact ⟨rfl, rfl⟩
    | under hNamespace _ _ _ => exact absurd hNamespace hNot
  · rintro ⟨rfl, rfl⟩
    exact LeafAt.here hNot

/- The leaf listed for a node that is no namespace. -/
theorem mem_singleton_leaf_iff
    {node : Json}
    {path : List String}
    {leaf : Leaf}
    (hNot : ¬ node.IsNamespace) :
    leaf ∈ [(⟨path, node⟩ : Leaf)] ↔
      ∃ keys,
        leaf.path = path ++ keys ∧ node.LeafAt keys leaf.node := by
  obtain ⟨leafPath, leafNode⟩ := leaf
  simp only [leafAt_iff_of_not_isNamespace hNot, List.mem_singleton,
    Leaf.mk.injEq]
  constructor
  · rintro ⟨rfl, rfl⟩
    exact ⟨[], by simp, rfl, rfl⟩
  · rintro ⟨keys, hPath, rfl, rfl⟩
    exact ⟨by simpa using hPath, rfl⟩

theorem not_isNamespace_of_not_isObject
    {node : Json}
    (hNot : ¬ node.IsObject) :
    ¬ node.IsNamespace :=
  fun hNamespace => hNot hNamespace.1

mutual

/- The leaves listed for a node are those that paths lead to. -/
theorem mem_leavesAt_iff :
    (node : Json) →
      node.UniqueKeys →
        ∀ path leaf,
          leaf ∈ leavesAt path node ↔
            ∃ keys,
              leaf.path = path ++ keys
                ∧ node.LeafAt keys leaf.node
| object ms, hUnique, path, leaf => by
    rw [leavesAt]
    split
    · next hNamespace =>
        rw [mem_leavesBelow_iff ms hUnique.2 path leaf]
        simp only [leafAt_iff_of_isNamespace hNamespace, LeafBelow,
          get?_eq_some_iff hUnique]
        constructor
        · rintro ⟨key, keys, child, hPath, hKey, hMember, hChild⟩
          exact
            ⟨key :: keys, hPath, key, keys, child, rfl, hKey,
              hMember, hChild⟩
        · rintro ⟨_, hPath, key, keys, child, rfl, hKey, hMember,
            hChild⟩
          exact ⟨key, keys, child, hPath, hKey, hMember, hChild⟩
    · next hNot => exact mem_singleton_leaf_iff hNot
| null, _, path, leaf =>
    mem_singleton_leaf_iff
      (not_isNamespace_of_not_isObject (by decide))
| boolean b, _, path, leaf =>
    mem_singleton_leaf_iff
      (not_isNamespace_of_not_isObject (by simp [IsObject, kind]))
| number x, _, path, leaf =>
    mem_singleton_leaf_iff
      (not_isNamespace_of_not_isObject (by simp [IsObject, kind]))
| text s, _, path, leaf =>
    mem_singleton_leaf_iff
      (not_isNamespace_of_not_isObject (by simp [IsObject, kind]))
| array items, _, path, leaf =>
    mem_singleton_leaf_iff
      (not_isNamespace_of_not_isObject (by simp [IsObject, kind]))

theorem mem_leavesBelow_iff :
    (ms : List (String × Json)) →
      UniqueKeysMembers ms →
        ∀ path leaf,
          leaf ∈ leavesBelow path ms ↔
            ∃ key keys child,
              leaf.path = path ++ key :: keys
                ∧ ¬ IsReserved key
                ∧ (key, child) ∈ ms
                ∧ child.LeafAt keys leaf.node
| [], _, path, leaf => by simp [leavesBelow]
| (key, node) :: ms, hUnique, path, leaf => by
    rw [leavesBelow, List.mem_append,
      mem_leavesBelow_iff ms hUnique.2 path leaf]
    have hHead :
        leaf ∈ (if IsReserved key then []
            else leavesAt (path ++ [key]) node) ↔
          ∃ keys,
            leaf.path = path ++ key :: keys
              ∧ ¬ IsReserved key
              ∧ node.LeafAt keys leaf.node := by
      split
      · next hKey => simp [hKey]
      · next hKey =>
          rw [mem_leavesAt_iff node hUnique.1 (path ++ [key]) leaf]
          simp [hKey]
    rw [hHead]
    constructor
    · rintro (⟨keys, hPath, hKey, hLeaf⟩
        | ⟨k, keys, child, hPath, hKey, hMember, hLeaf⟩)
      · exact ⟨key, keys, node, hPath, hKey, by simp, hLeaf⟩
      · exact
          ⟨k, keys, child, hPath, hKey,
            List.mem_cons_of_mem _ hMember, hLeaf⟩
    · rintro ⟨k, keys, child, hPath, hKey, hMember, hLeaf⟩
      rcases List.mem_cons.mp hMember with hEq | hTail
      · cases hEq
        exact Or.inl ⟨keys, hPath, hKey, hLeaf⟩
      · exact Or.inr ⟨k, keys, child, hPath, hKey, hTail, hLeaf⟩

end

/- The leaves of a document are those below its root. -/
theorem mem_leaves_iff
    {root : Json}
    (hUnique : root.UniqueKeys)
    (leaf : Leaf) :
    leaf ∈ root.leaves ↔ root.LeafBelow leaf.path leaf.node := by
  rw [leaves, mem_leavesBelow_iff root.members hUnique.members [] leaf]
  simp only [List.nil_append, LeafBelow, get?_eq_some_iff hUnique]

/- The walk reaches its leaves. -/
theorem LeafAt.reach?_eq
    {node target : Json}
    {path : List String}
    (hLeaf : node.LeafAt path target) :
    reach? path node = some target := by
  induction hLeaf with
  | here _ => rfl
  | under _ hKey hGet _ ih =>
      exact reach?_cons_eq_some_iff.mpr ⟨hKey, _, hGet, ih⟩

theorem LeafBelow.reach?_eq
    {root target : Json}
    {path : List String}
    (hLeaf : root.LeafBelow path target) :
    reach? path root = some target := by
  rcases hLeaf with ⟨key, keys, child, rfl, hKey, hGet, hChild⟩
  exact
    reach?_cons_eq_some_iff.mpr ⟨hKey, child, hGet, hChild.reach?_eq⟩

/- It ends at what is no namespace. -/
theorem LeafAt.not_isNamespace
    {node target : Json}
    {path : List String}
    (hLeaf : node.LeafAt path target) :
    ¬ target.IsNamespace := by
  induction hLeaf with
  | here hNot => exact hNot
  | under _ _ _ _ ih => exact ih

/- The root is no leaf. -/
theorem LeafBelow.path_ne_nil
    {root target : Json}
    {path : List String}
    (hLeaf : root.LeafBelow path target) :
    path ≠ [] := by
  rcases hLeaf with ⟨key, keys, _, rfl, -⟩
  exact List.cons_ne_nil key keys

end Json

namespace Store

/- The leaves of a layer are those below the root of its tree. -/
theorem mem_leaves_iff
    (store : Store)
    (c : Collection)
    (leaf : Leaf) :
    leaf ∈ store.leaves c ↔
      (store.tree c).LeafBelow leaf.path leaf.node :=
  Json.mem_leaves_iff (store.documents.get c).uniqueKeys leaf

/- References find a leaf unless its path has an empty key. -/
theorem node?_leaf_iff
    {store : Store}
    {c : Collection}
    {leaf : Leaf}
    (hLeaf : leaf ∈ store.leaves c) :
    store.node? ⟨c, leaf.path⟩ = some leaf.node ↔ "" ∉ leaf.path := by
  rw [mem_leaves_iff] at hLeaf
  rw [node?, Json.descend?_eq_some_iff]
  exact and_iff_left hLeaf.reach?_eq

end Store

end DesignTokens

------------------------------------------------------------
-- Records among the Leaves
------------------------------------------------------------

namespace DesignTokens

namespace Json

/-
  A record stands above the end of a path, strictly between it
  and the root.
-/
def RecordAbove
    (root : Json)
    (path : List String) : Prop :=
  ∃ above below node,
    path = above ++ below
      ∧ above ≠ []
      ∧ below ≠ []
      ∧ reach? above root = some node
      ∧ Record.IsRecord node

/- What has a member is an object. -/
theorem isObject_of_get?
    {node child : Json}
    {key : String}
    (hGet : node.get? key = some child) :
    node.IsObject := by
  have hMember := mem_of_lookup hGet
  cases node with
  | object ms => rfl
  | _ => simp [members] at hMember

/- What holds a token is a namespace unless it is a record. -/
theorem isNamespace_iff
    {node child : Json}
    {key : String}
    (hKey : ¬ IsReserved key)
    (hGet : node.get? key = some child) :
    node.IsNamespace ↔ ¬ Record.IsRecord node := by
  have hMember := mem_of_lookup hGet
  have hNotStub : ¬ node.IsStub := by
    intro hStub
    exact hKey (hStub.1 key (List.mem_map.mpr ⟨_, hMember, rfl⟩))
  simp [IsNamespace, isObject_of_get? hGet, hNotStub]

/- A record stands above a path at its first key or further on. -/
theorem recordAbove_cons_iff
    {node child : Json}
    {key : String}
    {keys : List String}
    (hKey : ¬ IsReserved key)
    (hGet : node.get? key = some child) :
    node.RecordAbove (key :: keys) ↔
      (keys ≠ [] ∧ Record.IsRecord child)
        ∨ child.RecordAbove keys := by
  constructor
  · rintro ⟨above, below, between, hPath, hAbove, hBelow, hReach,
      hRecord⟩
    cases above with
    | nil => exact absurd rfl hAbove
    | cons first rest =>
        rw [List.cons_append, List.cons.injEq] at hPath
        rcases hPath with ⟨rfl, rfl⟩
        rw [reach?_cons_eq_some_iff, hGet] at hReach
        rcases hReach with ⟨-, _, hSame, hReach⟩
        cases hSame
        by_cases hRest : rest = []
        · subst hRest
          cases hReach
          exact Or.inl ⟨hBelow, hRecord⟩
        · exact
            Or.inr
              ⟨rest, below, between, rfl, hRest, hBelow, hReach,
                hRecord⟩
  · rintro (⟨hKeys, hRecord⟩
      | ⟨above, below, between, rfl, -, hBelow, hReach, hRecord⟩)
    · refine ⟨[key], keys, child, rfl, by simp, hKeys, ?_, hRecord⟩
      exact reach?_cons_eq_some_iff.mpr ⟨hKey, child, hGet, rfl⟩
    · refine
        ⟨key :: above, below, between, rfl, by simp, hBelow, ?_,
          hRecord⟩
      exact reach?_cons_eq_some_iff.mpr ⟨hKey, child, hGet, hReach⟩

/-
  What is no namespace is a leaf unless a record stands above
  it, or at the node where the path begins.
-/
theorem leafAt_iff_not_recordAbove
    {node target : Json}
    {path : List String}
    (hTarget : reach? path node = some target)
    (hEnd : ¬ target.IsNamespace) :
    node.LeafAt path target ↔
      ¬ (path ≠ [] ∧ Record.IsRecord node)
        ∧ ¬ node.RecordAbove path := by
  induction path generalizing node with
  | nil =>
      cases hTarget
      simp [LeafAt.here hEnd, RecordAbove]
  | cons key keys ih =>
      rcases reach?_cons_eq_some_iff.mp hTarget with
        ⟨hKey, child, hGet, hChild⟩
      rw [leafAt_cons_iff, leafBelow_cons_iff hKey hGet,
        isNamespace_iff hKey hGet, ih hChild,
        recordAbove_cons_iff hKey hGet, not_or]
      simp

/-
  A leaf below the root is what can be reached, is no namespace
  and has no record above it.
-/
theorem leafBelow_iff
    {root target : Json}
    {path : List String} :
    root.LeafBelow path target ↔
      path ≠ []
        ∧ reach? path root = some target
        ∧ ¬ target.IsNamespace
        ∧ ¬ root.RecordAbove path := by
  cases path with
  | nil =>
      constructor
      · intro hLeaf
        exact absurd rfl hLeaf.path_ne_nil
      · rintro ⟨hPath, -⟩
        exact absurd rfl hPath
  | cons key keys =>
      rw [reach?_cons_eq_some_iff]
      constructor
      · rintro ⟨_, _, child, hPath, hKey, hGet, hChild⟩
        cases hPath
        have hReach := hChild.reach?_eq
        have hEnd := hChild.not_isNamespace
        rw [leafAt_iff_not_recordAbove hReach hEnd] at hChild
        rw [recordAbove_cons_iff hKey hGet, not_or]
        exact ⟨by simp, ⟨hKey, child, hGet, hReach⟩, hEnd, hChild⟩
      · rintro ⟨-, ⟨hKey, child, hGet, hReach⟩, hEnd, hNot⟩
        rw [recordAbove_cons_iff hKey hGet, not_or] at hNot
        rw [leafBelow_cons_iff hKey hGet,
          leafAt_iff_not_recordAbove hReach hEnd]
        exact hNot

/- A record below the root is a leaf unless one stands above. -/
theorem leafBelow_iff_of_isRecord
    {root target : Json}
    {path : List String}
    (hPath : path ≠ [])
    (hTarget : reach? path root = some target)
    (hRecord : Record.IsRecord target) :
    root.LeafBelow path target ↔ ¬ root.RecordAbove path := by
  have hEnd : ¬ target.IsNamespace :=
    fun hNamespace => hNamespace.2.1 hRecord
  simp [leafBelow_iff, hPath, hTarget, hEnd]

end Json

end DesignTokens

------------------------------------------------------------
-- Reported Records
------------------------------------------------------------

namespace DesignTokens

namespace Store

/-
  A record that can be reached has an entry or a warning exactly
  when no other record stands above it.
-/
theorem reports_record_iff
    (store : Store)
    (options : EmitOptions)
    (c : Collection)
    {path : List String}
    {node : Json}
    (hPath : path ≠ [])
    (hNode : (store.tree c).reach? path = some node)
    (hRecord : Record.IsRecord node) :
    (∃ fate, (store.emit options).Reports c path fate) ↔
      ¬ (store.tree c).RecordAbove path := by
  rw [exists_reports_iff,
    ← Json.leafBelow_iff_of_isRecord hPath hNode hRecord]
  constructor
  · rintro ⟨leaf, hLeaf, rfl⟩
    rw [mem_leaves_iff] at hLeaf
    have hReach := hLeaf.reach?_eq
    rw [hNode] at hReach
    cases hReach
    exact hLeaf
  · intro hLeaf
    exact ⟨⟨path, node⟩, (store.mem_leaves_iff c _).mpr hLeaf, rfl⟩

/- A store with a record inside a record of the primitives. -/
def nestedRecord : Store where
  documents :=
    { primitives :=
        { root := .object [
            ("a", .object [
              ("$value", .text "#000"),
              ("b", .object [("$value", .text "#fff")])])]
          uniqueKeys := by
            simp [Json.UniqueKeys, Json.UniqueKeysMembers] }
      semantic := .empty
      component := .empty }
  isObject c := by cases c <;> rfl

/- The outer record is reported. -/
theorem nestedRecord_reports_outer :
    ∃ fate,
      (nestedRecord.emit ⟨⟨"token"⟩, 10⟩).Reports .primitives ["a"]
        fate := by
  refine
    (nestedRecord.reports_record_iff ⟨⟨"token"⟩, 10⟩ .primitives
      (by simp) rfl (by decide)).mpr ?_
  rintro ⟨above, below, node, hPath, hAbove, hBelow, -, -⟩
  cases above with
  | nil => exact hAbove rfl
  | cons key keys => simp_all

/- The inner one is resolved, but neither emitted nor reported. -/
theorem nestedRecord_unreported :
    (nestedRecord.tree .primitives).reach? ["a", "b"] =
        some (.object [("$value", .text "#fff")])
      ∧ nestedRecord.resolve 10 (.text "\x7ba.b\x7d")
          ⟨.primitives, none⟩ = .ok (.text "#fff")
      ∧ ¬ ∃ fate,
          (nestedRecord.emit ⟨⟨"token"⟩, 10⟩).Reports
            .primitives ["a", "b"] fate := by
  refine ⟨rfl, rfl, ?_⟩
  rw [exists_reports_iff]
  decide

end Store

end DesignTokens
