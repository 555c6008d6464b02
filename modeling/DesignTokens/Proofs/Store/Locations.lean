import DesignTokens.Store.Basic
import Mathlib.Data.Finset.Card
import Mathlib.Data.List.Nodup

/-
  This file counts the addressable nodes of a store.

  Key definitions include:
    * `Json.pathsBelow`
    * `Store.locations`

  Key theorems include:
    * `Json.mem_pathsBelow_iff`
    * `Json.pathsBelow_nodup`
    * `Store.mem_locations_iff`

  The paths of addressable nodes are listed along the document.
  Because no object repeats a key, every node is listed once,
  and the list of a store can be used to count its nodes.
-/

------------------------------------------------------------
-- Members of Objects without Repeated Keys
------------------------------------------------------------

namespace DesignTokens

namespace Json

/- A document of one token with a text repeats no key. -/
theorem uniqueKeys_token
    (key text : String) :
    (object [(key, object [("$value", .text text)])]).UniqueKeys := by
  simp [UniqueKeys, UniqueKeysMembers]

/- Without repeated keys, no two members have one key. -/
theorem UniqueKeys.keys_nodup
    {node : Json}
    (hUnique : node.UniqueKeys) :
    (node.members.map Prod.fst).Nodup := by
  cases node with
  | object ms => exact hUnique.1
  | _ => exact List.nodup_nil

/- The values of an object without repeated keys have none. -/
theorem UniqueKeys.members
    {node : Json}
    (hUnique : node.UniqueKeys) :
    UniqueKeysMembers node.members := by
  cases node with
  | object ms => exact hUnique.2
  | _ => trivial

theorem UniqueKeys.of_mem_members
    {node child : Json}
    {key : String}
    (hUnique : node.UniqueKeys)
    (hMember : (key, child) ∈ node.members) :
    child.UniqueKeys :=
  (uniqueKeysMembers_iff _).mp hUnique.members _ hMember

/- Without repeated keys every member is found by its key. -/
theorem lookup_eq_some_of_mem
    {ms : List (String × Json)}
    {key : String}
    {value : Json}
    (hNodup : (ms.map Prod.fst).Nodup)
    (hMember : (key, value) ∈ ms) :
    ms.lookup key = some value := by
  induction ms with
  | nil => simp at hMember
  | cons m ms ih =>
      rw [List.map_cons, List.nodup_cons] at hNodup
      rcases List.mem_cons.mp hMember with rfl | hTail
      · simp
      · have hOther : (key == m.1) = false := by
          apply beq_eq_false_iff_ne.mpr
          rintro rfl
          exact hNodup.1 (List.mem_map.mpr ⟨_, hTail, rfl⟩)
        rw [List.lookup_cons, hOther]
        exact ih hNodup.2 hTail

/- In an object without repeated keys, members are lookups. -/
theorem get?_eq_some_iff
    {node child : Json}
    {key : String}
    (hUnique : node.UniqueKeys) :
    node.get? key = some child ↔
      (key, child) ∈ node.members := by
  constructor
  · exact mem_of_lookup
  · exact lookup_eq_some_of_mem hUnique.keys_nodup

/- Descending one key further up front. -/
theorem descend?_cons_eq_some_iff
    {node target : Json}
    {key : String}
    {keys : List String} :
    descend? (key :: keys) node = some target ↔
      IsAddressable key ∧
        ∃ child, node.get? key = some child ∧
          descend? keys child = some target := by
  rw [descend?]
  by_cases hKey : IsAddressable key
  · cases node.get? key with
    | none => simp [hKey]
    | some child => simp [hKey]
  · simp [hKey]

/- A node without addressable members leads nowhere else. -/
theorem descend?_eq_none
    {node : Json}
    {path : List String}
    (hKeys : ∀ key ∈ node.keys, IsReserved key)
    (hPath : path ≠ []) :
    descend? path node = none := by
  cases path with
  | nil => exact absurd rfl hPath
  | cons key keys =>
      rw [Option.eq_none_iff_forall_ne_some]
      intro target hTarget
      rcases descend?_cons_eq_some_iff.mp hTarget with
        ⟨hKey, child, hGet, -⟩
      have hMember := mem_of_lookup hGet
      exact
        hKey.2 (hKeys key (List.mem_map.mpr ⟨_, hMember, rfl⟩))

end Json

end DesignTokens

------------------------------------------------------------
-- Paths of Addressable Nodes
------------------------------------------------------------

namespace DesignTokens

namespace Json

mutual

/- The paths of the addressable nodes below a node. -/
def pathsBelow : Json → List (List String)
| object ms => pathsAmong ms
| null => []
| boolean _ => []
| number _ => []
| text _ => []
| array _ => []

/- The paths of the addressable nodes among and below members. -/
def pathsAmong : List (String × Json) → List (List String)
| [] => []
| (key, node) :: ms =>
    (if IsAddressable key then
      ([] :: pathsBelow node).map (key :: ·)
    else
      []) ++ pathsAmong ms

end

/- The paths below a node are those among its members. -/
theorem pathsBelow_eq
    (node : Json) :
    node.pathsBelow = pathsAmong node.members := by
  cases node <;> simp [pathsBelow, pathsAmong, members]

/- A listed path leads through a member of an addressable key. -/
theorem mem_pathsAmong_iff
    {ms : List (String × Json)}
    {path : List String} :
    path ∈ pathsAmong ms ↔
      ∃ key keys child,
        path = key :: keys ∧ IsAddressable key ∧
          (key, child) ∈ ms ∧
            (keys = [] ∨ keys ∈ child.pathsBelow) := by
  induction ms with
  | nil => simp [pathsAmong]
  | cons m ms ih =>
      obtain ⟨key, node⟩ := m
      rw [pathsAmong, List.mem_append, ih]
      constructor
      · intro hPath
        rcases hPath with
          hHead | ⟨k, keys, child, hPath, hKey, hMem, hRest⟩
        · by_cases hKey : IsAddressable key
          · rw [if_pos hKey, List.mem_map] at hHead
            rcases hHead with ⟨keys, hKeys, rfl⟩
            exact
              ⟨key, keys, node, rfl, hKey, by simp,
                List.mem_cons.mp hKeys⟩
          · simp [hKey] at hHead
        · exact
            ⟨k, keys, child, hPath, hKey,
              List.mem_cons_of_mem _ hMem, hRest⟩
      · intro hBelow
        rcases hBelow with
          ⟨k, keys, child, rfl, hKey, hMem, hRest⟩
        rcases List.mem_cons.mp hMem with hEq | hMem
        · left
          cases hEq
          rw [if_pos hKey, List.mem_map]
          exact ⟨keys, List.mem_cons.mpr hRest, rfl⟩
        · right
          exact ⟨k, keys, child, rfl, hKey, hMem, hRest⟩

/- The node itself is not below itself. -/
theorem nil_notMem_pathsBelow
    (node : Json) :
    [] ∉ node.pathsBelow := by
  rw [pathsBelow_eq, mem_pathsAmong_iff]
  intro hBelow
  rcases hBelow with ⟨key, keys, child, hNil, -⟩
  exact List.cons_ne_nil key keys hNil.symm

/-
  The listed paths are those that lead to a node below, in a
  value without repeated keys.
-/
theorem mem_pathsBelow_iff
    {node : Json}
    (hUnique : node.UniqueKeys)
    (path : List String) :
    path ∈ node.pathsBelow ↔
      path ≠ [] ∧ ∃ target, descend? path node = some target := by
  induction path generalizing node with
  | nil => simp [nil_notMem_pathsBelow]
  | cons key keys ih =>
      rw [pathsBelow_eq, mem_pathsAmong_iff]
      constructor
      · intro hBelow
        rcases hBelow with
          ⟨k, ks, child, hPath, hKey, hMem, hRest⟩
        cases hPath
        have hTarget : ∃ target, descend? keys child = some target := by
          rcases hRest with rfl | hRest
          · exact ⟨child, rfl⟩
          · exact ((ih (hUnique.of_mem_members hMem)).mp hRest).2
        rcases hTarget with ⟨target, hTarget⟩
        refine ⟨by simp, target, ?_⟩
        rw [descend?_cons_eq_some_iff]
        exact
          ⟨hKey, child, (get?_eq_some_iff hUnique).mpr hMem, hTarget⟩
      · intro hDescends
        rcases hDescends with ⟨-, target, hTarget⟩
        rw [descend?_cons_eq_some_iff] at hTarget
        rcases hTarget with ⟨hKey, child, hGet, hTarget⟩
        have hMem := (get?_eq_some_iff hUnique).mp hGet
        refine ⟨key, keys, child, rfl, hKey, hMem, ?_⟩
        by_cases hNil : keys = []
        · exact Or.inl hNil
        · exact
            Or.inr
              ((ih (hUnique.of_mem_members hMem)).mpr
                ⟨hNil, target, hTarget⟩)

mutual

/- Every addressable node below is listed once. -/
theorem pathsBelow_nodup :
    (node : Json) → node.UniqueKeys → node.pathsBelow.Nodup
| object ms, hUnique => pathsAmong_nodup ms hUnique.1 hUnique.2
| null, _ => List.nodup_nil
| boolean _, _ => List.nodup_nil
| number _, _ => List.nodup_nil
| text _, _ => List.nodup_nil
| array _, _ => List.nodup_nil

theorem pathsAmong_nodup :
    (ms : List (String × Json)) →
      (ms.map Prod.fst).Nodup →
        UniqueKeysMembers ms → (pathsAmong ms).Nodup
| [], _, _ => List.nodup_nil
| (key, node) :: ms, hNodup, hUnique => by
    rw [List.map_cons, List.nodup_cons] at hNodup
    have hBelow : node.pathsBelow.Nodup :=
      pathsBelow_nodup node hUnique.1
    have hAmong : (pathsAmong ms).Nodup :=
      pathsAmong_nodup ms hNodup.2 hUnique.2
    rw [pathsAmong, List.nodup_append']
    refine ⟨?_, hAmong, ?_⟩
    · split
      · exact
          (List.nodup_cons.mpr
            ⟨nil_notMem_pathsBelow node, hBelow⟩).map
              List.cons_injective
      · exact List.nodup_nil
    -- The later paths begin with other keys.
    · intro path hHead hTail
      rw [mem_pathsAmong_iff] at hTail
      rcases hTail with ⟨k, keys, child, rfl, -, hMem, -⟩
      split at hHead
      · rcases List.mem_map.mp hHead with ⟨rest, -, hEq⟩
        cases hEq
        exact hNodup.1 (List.mem_map.mpr ⟨_, hMem, rfl⟩)
      · simp at hHead

end

end Json

end DesignTokens

------------------------------------------------------------
-- Locations of a Store
------------------------------------------------------------

namespace DesignTokens

namespace Store

/- The locations of the addressable nodes, layer by layer. -/
def locationList (store : Store) : List Location :=
  Collection.all.flatMap fun c =>
    (store.tree c).pathsBelow.map fun path => ⟨c, path⟩

theorem locationList_nodup
    (store : Store) :
    store.locationList.Nodup := by
  rw [locationList, List.nodup_flatMap]
  constructor
  · intro c _
    apply
      ((store.tree c).pathsBelow_nodup
        (store.documents.get c).uniqueKeys).map
    intro p q hEq
    exact (Location.mk.inj hEq).2
  · have hAll : Collection.all.Nodup := by decide
    apply hAll.imp
    intro c d hNe l hC hD
    rcases List.mem_map.mp hC with ⟨p, -, rfl⟩
    rcases List.mem_map.mp hD with ⟨q, -, hEq⟩
    exact hNe (Location.mk.inj hEq).1.symm

/- The locations of the addressable nodes. -/
def locations (store : Store) : Finset Location :=
  ⟨store.locationList, store.locationList_nodup⟩

/-
  A location is addressable when its path is not empty and
  leads to a node.
-/
theorem mem_locations_iff
    (store : Store)
    (l : Location) :
    l ∈ store.locations ↔
      l.path ≠ [] ∧ ∃ node, store.node? l = some node := by
  have hUnique : (store.tree l.collection).UniqueKeys :=
    (store.documents.get l.collection).uniqueKeys
  change l ∈ store.locationList ↔ _
  rw [node?, ← Json.mem_pathsBelow_iff hUnique, locationList,
    List.mem_flatMap]
  constructor
  · intro hPlace
    rcases hPlace with ⟨c, -, hMem⟩
    rcases List.mem_map.mp hMem with ⟨path, hPath, rfl⟩
    exact hPath
  · intro hPath
    exact
      ⟨l.collection, Collection.mem_all _,
        List.mem_map.mpr ⟨l.path, hPath, rfl⟩⟩

end Store

end DesignTokens
