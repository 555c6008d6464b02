import DesignTokens.Proofs.Emission.Walk
import DesignTokens.Proofs.Reference.Notation

/-
  This file tells which leaves of a layer a reference can name.

  Key definitions include:
    * `Store.Addresses`

  Key theorems include:
    * `Store.means_iff`
    * `Store.addresses_iff`
    * `Store.addressable_iff`
    * `Store.shadowedKey_addresses`

  A path can be written with dots or with hyphens, whichever no
  key of it holds.  Written with hyphens it is read with dots
  first, and a node that stands there hides the leaf.
-/

------------------------------------------------------------
-- Addresses of Leaves
------------------------------------------------------------

namespace DesignTokens

namespace Store

/-
  A text is a reference, and in a scope that hints at a layer it
  is located at a leaf of this layer.
-/
def Addresses
    (store : Store)
    (layer c : Collection)
    (leaf : Leaf)
    (text : String) : Prop :=
  ∃ r,
    Reference.parse? text = some r
      ∧ store.locate? r ⟨layer, some c⟩ =
          some (⟨c, leaf.path⟩, leaf.node)

variable {store : Store}
variable {layer c : Collection}
variable {leaf : Leaf}

/-
  A reference means the node at a path when the path is its
  dotted reading, or its hyphenated one and the dotted reading
  leads nowhere.
-/
theorem means_iff
    {r : Reference}
    {path : List String}
    {node : Json} :
    store.Means r c ⟨c, path⟩ node ↔
      store.node? ⟨c, path⟩ = some node
        ∧ (r.dottedReading = path
          ∨ r.hyphenatedReading = path
            ∧ store.node? ⟨c, r.dottedReading⟩ = none) := by
  constructor
  · intro hMeans
    refine ⟨hMeans.node?_eq, ?_⟩
    cases hMeans with
    | dotted _ => exact Or.inl rfl
    | hyphenated hDotted _ => exact Or.inr ⟨rfl, hDotted⟩
  · rintro ⟨hNode, rfl | ⟨rfl, hDotted⟩⟩
    · exact Means.dotted hNode
    · exact Means.hyphenated hDotted hNode

/- The layer that is hinted at is searched first. -/
theorem locate?_hinted_eq_some_iff
    {r : Reference}
    {path : List String}
    {node : Json} :
    store.locate? r ⟨layer, some c⟩ = some (⟨c, path⟩, node) ↔
      store.Means r c ⟨c, path⟩ node := by
  rw [locate?_eq_some_iff]
  constructor
  · rintro ⟨d, before, after, -, -, hMeans⟩
    obtain rfl : c = d := hMeans.collection_eq
    exact hMeans
  · intro hMeans
    exact ⟨c, [], _, rfl, by simp, hMeans⟩

/- A text addresses a leaf when its readings find it. -/
theorem addresses_iff
    {text : String} :
    store.Addresses layer c leaf text ↔
      ∃ r : Reference,
        r.IsWellFormed
          ∧ text = r.text
          ∧ store.node? ⟨c, leaf.path⟩ = some leaf.node
          ∧ (r.dottedReading = leaf.path
            ∨ r.hyphenatedReading = leaf.path
              ∧ store.node? ⟨c, r.dottedReading⟩ = none) := by
  simp only [Addresses, Reference.parse?_eq_some_iff,
    locate?_hinted_eq_some_iff, means_iff, and_assoc]

/- Leaves of spellable keys are where references find them. -/
theorem node?_eq_of_mem_leaves
    (hLeaf : leaf ∈ store.leaves c)
    (hKeys : ∀ key ∈ leaf.path, IsSpellable key) :
    store.node? ⟨c, leaf.path⟩ = some leaf.node :=
  (node?_leaf_iff hLeaf).mpr fun hEmpty => (hKeys "" hEmpty).1 rfl

/- Spellable keys make a reference that can be read. -/
theorem isWellFormed_joined_path
    {sep : Char}
    (hLeaf : leaf ∈ store.leaves c)
    (hKeys : ∀ key ∈ leaf.path, IsSpellable key)
    (hSep : Reference.isPathChar sep = true) :
    (Reference.joined sep leaf.path).IsWellFormed := by
  rw [mem_leaves_iff] at hLeaf
  refine
    Reference.isWellFormed_joined_of_each hLeaf.path_ne_nil ?_ hSep
  exact fun key hKey => isSpellable_iff.mp (hKeys key hKey)

/- A path that dots divide is found as it is written with dots. -/
theorem addresses_dotted
    (hLeaf : leaf ∈ store.leaves c)
    (hKeys : ∀ key ∈ leaf.path, IsSpellable key)
    (hDots : Divides '.' leaf.path) :
    store.Addresses layer c leaf
      ("\x7b" ++ dotted leaf.path ++ "\x7d") := by
  have hPath := ((mem_leaves_iff store c leaf).mp hLeaf).path_ne_nil
  refine
    addresses_iff.mpr
      ⟨Reference.joined '.' leaf.path,
        isWellFormed_joined_path hLeaf hKeys (by decide), rfl,
        node?_eq_of_mem_leaves hLeaf hKeys, Or.inl ?_⟩
  exact Reference.split_joined hPath hDots

/-
  A path that hyphens divide is found as it is written with
  hyphens, unless the text leads elsewhere when read with dots.
-/
theorem addresses_hyphenated
    (hLeaf : leaf ∈ store.leaves c)
    (hKeys : ∀ key ∈ leaf.path, IsSpellable key)
    (hHyphens : Divides '-' leaf.path)
    (hFree :
      store.node? ⟨c, Text.split '.' (Text.join '-' leaf.path)⟩ = none) :
    store.Addresses layer c leaf
      ("\x7b" ++ Text.join '-' leaf.path ++ "\x7d") := by
  have hPath := ((mem_leaves_iff store c leaf).mp hLeaf).path_ne_nil
  refine
    addresses_iff.mpr
      ⟨Reference.joined '-' leaf.path,
        isWellFormed_joined_path hLeaf hKeys (by decide), rfl,
        node?_eq_of_mem_leaves hLeaf hKeys, Or.inr ⟨?_, hFree⟩⟩
  exact Reference.split_joined hPath hHyphens

/- A leaf that a text addresses has such a path. -/
theorem divides_of_addresses
    {text : String}
    (hText : store.Addresses layer c leaf text) :
    (∀ key ∈ leaf.path, IsSpellable key)
      ∧ (Divides '.' leaf.path
        ∨ Divides '-' leaf.path
          ∧ store.node?
              ⟨c, Text.split '.' (Text.join '-' leaf.path)⟩ = none) := by
  rcases addresses_iff.mp hText with
    ⟨r, hWellFormed, -, hNode, hReading⟩
  have hEmpty : "" ∉ leaf.path :=
    (Json.descend?_eq_some_iff.mp hNode).1
  have hNe (key : String) (hKey : key ∈ leaf.path) : key ≠ "" := by
    rintro rfl
    exact hEmpty hKey
  rcases hReading with hDotted | ⟨hHyphenated, hFree⟩
  · rw [← hDotted] at hNe ⊢
    exact
      ⟨fun key hKey =>
          isSpellable_of_mem_split hWellFormed hKey (hNe key hKey),
        Or.inl (divides_split '.' r.path)⟩
  · have hPath : Text.join '-' leaf.path = r.path := by
      rw [← hHyphenated]
      exact Text.join_split '-' r.path
    rw [hPath]
    rw [← hHyphenated] at hNe ⊢
    exact
      ⟨fun key hKey =>
          isSpellable_of_mem_split hWellFormed hKey (hNe key hKey),
        Or.inr ⟨divides_split '-' r.path, hFree⟩⟩

/-
  Some text addresses a leaf exactly when every key of its path
  can be spelled, and either no key holds a dot, or none holds a
  hyphen and the path with hyphens leads nowhere when it is read
  with dots.  The path with dots is such a text in the one case,
  and the path with hyphens in the other.
-/
theorem addressable_iff
    (hLeaf : leaf ∈ store.leaves c)
    (layer : Collection) :
    ((∃ text, store.Addresses layer c leaf text) ↔
        (∀ key ∈ leaf.path, IsSpellable key)
          ∧ (Divides '.' leaf.path
            ∨ Divides '-' leaf.path
              ∧ store.node?
                  ⟨c, Text.split '.' (Text.join '-' leaf.path)⟩ =
                    none))
      ∧ ((∀ key ∈ leaf.path, IsSpellable key) →
          Divides '.' leaf.path →
            store.Addresses layer c leaf
              ("\x7b" ++ dotted leaf.path ++ "\x7d"))
      ∧ ((∀ key ∈ leaf.path, IsSpellable key) →
          Divides '-' leaf.path →
            store.node?
                ⟨c, Text.split '.' (Text.join '-' leaf.path)⟩ = none →
              store.Addresses layer c leaf
                ("\x7b" ++ Text.join '-' leaf.path ++ "\x7d")) := by
  refine ⟨⟨?toKeys, ?toText⟩, addresses_dotted hLeaf,
    addresses_hyphenated hLeaf⟩
  case toKeys =>
    rintro ⟨text, hText⟩
    exact divides_of_addresses hText
  case toText =>
    rintro ⟨hKeys, hDots | ⟨hHyphens, hFree⟩⟩
    · exact ⟨_, addresses_dotted hLeaf hKeys hDots⟩
    · exact ⟨_, addresses_hyphenated hLeaf hKeys hHyphens hFree⟩

/- A store with two tokens below a key that has a dot. -/
def shadowedKey : Store where
  documents :=
    { primitives :=
        { root := .object [
            ("a.b", .object [
              ("c", .object [("$value", .text "#000")]),
              ("d", .object [("$value", .text "#888")])]),
            ("a", .object [
              ("b-c", .object [("$value", .text "#fff")])])]
          uniqueKeys := by
            simp [Json.UniqueKeys, Json.UniqueKeysMembers] }
      semantic := .empty
      component := .empty }
  isObject c := by cases c <;> rfl

/- A third token stands where the first is looked for. -/
theorem shadowedKey_addresses :
    let hidden : Leaf :=
      ⟨["a.b", "c"], .object [("$value", .text "#000")]⟩
    let free : Leaf :=
      ⟨["a.b", "d"], .object [("$value", .text "#888")]⟩
    hidden ∈ shadowedKey.leaves .primitives
      ∧ free ∈ shadowedKey.leaves .primitives
      ∧ (¬ ∃ text,
          shadowedKey.Addresses .component .primitives hidden text)
      ∧ shadowedKey.Addresses .component .primitives free
          "\x7ba.b-d\x7d" := by
  intro hidden free
  have hHidden : hidden ∈ shadowedKey.leaves .primitives :=
    List.mem_of_getElem? (i := 0) rfl
  have hFree : free ∈ shadowedKey.leaves .primitives :=
    List.mem_of_getElem? (i := 1) rfl
  have hHiddenText : Text.join '-' hidden.path = "a.b-c" := rfl
  have hFreeText : Text.join '-' free.path = "a.b-d" := rfl
  refine ⟨hHidden, hFree, ?_, ?_⟩
  · rw [(addressable_iff hHidden .component).1, hHiddenText]
    rintro ⟨-, hDots | ⟨-, hNone⟩⟩
    · exact hDots "a.b" (by decide) (by decide)
    · cases hNone
  · have hText :=
      (addressable_iff hFree .component).2.2 (by decide) (by decide)
    rw [hFreeText] at hText
    exact hText rfl

end Store

end DesignTokens
