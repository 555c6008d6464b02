import DesignTokens.Proofs.Emission.DocumentOrder

/-
  This file tells which tokens the audit lists as deprecated.

  Key definitions include:
    * `Deprecation.Replaces`
    * `Deprecation.Flags`
    * `Deprecation.Declares`

  Key theorems include:
    * `Deprecation.ofExtensions?_eq_some_iff`
    * `Store.audit_lists_iff`
    * `Store.mistypedReplacement_unlisted`

  A notice is read as a whole.  A flag counts only next to a
  replacement that is absent, null or a text, and an array may
  give both by position.  Each leaf that counts as deprecated is
  listed once, since no two leaves of a layer have one path.
-/

------------------------------------------------------------
-- What Extensions Declare
------------------------------------------------------------

namespace DesignTokens

namespace Deprecation

/- The replacement that a field gives, if it can be read. -/
inductive Replaces : Option Json → Option String → Prop
| absent : Replaces none none
| null : Replaces (some .null) none
| text (s : String) : Replaces (some (.text s)) (some s)

/-
  A notice flags its token, with a replacement: an object by the
  names of its fields, an array by their positions.
-/
inductive Flags : Json → Option String → Prop
| object {ms : List (String × Json)} {replacedBy : Option String} :
    ms.lookup "deprecated" = some (.boolean true) →
      Replaces (ms.lookup "replacedBy") replacedBy →
        Flags (.object ms) replacedBy
| array {items : List Json} {replacedBy : Option String} :
    items.length ≤ 1 →
      Replaces items.head? replacedBy →
        Flags (.array (.boolean true :: items)) replacedBy

/-
  Extensions declare a deprecation, with a replacement.  The
  notice stands under its own key; only without that key are the
  extensions the notice.
-/
inductive Declares : Json → Option String → Prop
| nested
    {extensions notice : Json}
    {replacedBy : Option String} :
    extensions.get? "deprecation" = some notice →
      Flags notice replacedBy →
        Declares extensions replacedBy
| flat
    {extensions : Json}
    {replacedBy : Option String} :
    extensions.get? "deprecation" = none →
      Flags extensions replacedBy →
        Declares extensions replacedBy

namespace Notice

theorem flag?_eq_some_true_iff
    (field : Option Json) :
    flag? field = some true ↔ field = some (.boolean true) := by
  unfold flag?
  split <;> simp_all

theorem replacement?_eq_some_iff
    (field : Option Json)
    (replacedBy : Option String) :
    replacement? field = some replacedBy ↔
      Replaces field replacedBy := by
  constructor
  · intro hRead
    unfold replacement? at hRead
    split at hRead <;> cases hRead
    · exact Replaces.absent
    · exact Replaces.null
    · exact Replaces.text _
  · rintro ⟨⟩ <;> rfl

/- A notice with the flag set is read from what flags a token. -/
theorem ofJson?_eq_some_true_iff
    (notice : Json)
    (replacedBy : Option String) :
    ofJson? notice = some ⟨true, replacedBy⟩ ↔
      Flags notice replacedBy := by
  constructor
  · intro hRead
    unfold ofJson? at hRead
    split at hRead
    · next ms =>
        simp only [Option.bind_eq_bind, Option.bind_eq_some_iff,
          Option.pure_def, Option.some.injEq, mk.injEq] at hRead
        rcases hRead with ⟨_, hFlag, _, hReplaced, rfl, rfl⟩
        rw [flag?_eq_some_true_iff] at hFlag
        rw [replacement?_eq_some_iff] at hReplaced
        exact Flags.object hFlag hReplaced
    · next items =>
        split at hRead
        · next hLength =>
            simp only [Option.bind_eq_bind, Option.bind_eq_some_iff,
              Option.pure_def, Option.some.injEq, mk.injEq] at hRead
            rcases hRead with ⟨_, hFlag, _, hReplaced, rfl, rfl⟩
            rw [flag?_eq_some_true_iff] at hFlag
            rw [replacement?_eq_some_iff] at hReplaced
            cases items with
            | nil => simp at hFlag
            | cons first rest =>
                simp only [List.getElem?_cons_zero,
                  Option.some.injEq] at hFlag
                subst hFlag
                rw [List.getElem?_cons_succ, ← List.head?_eq_getElem?]
                  at hReplaced
                exact
                  Flags.array (Nat.le_of_succ_le_succ hLength) hReplaced
        · cases hRead
    · cases hRead
  · intro hFlags
    cases hFlags with
    | object hFlag hReplaced =>
        rw [← flag?_eq_some_true_iff] at hFlag
        rw [← replacement?_eq_some_iff] at hReplaced
        simp [ofJson?, hFlag, hReplaced]
    | array hLength hReplaced =>
        rw [← replacement?_eq_some_iff, List.head?_eq_getElem?]
          at hReplaced
        simp [ofJson?, flag?, hLength, hReplaced]

end Notice

/- A deprecation is read from extensions that declare one. -/
theorem ofExtensions?_eq_some_iff
    (extensions : Json)
    (replacedBy : Option String) :
    ofExtensions? extensions = some ⟨replacedBy⟩ ↔
      Declares extensions replacedBy := by
  have hRead :
      ofExtensions? extensions = some ⟨replacedBy⟩ ↔
        Flags (noticeOf extensions) replacedBy := by
    rw [← Notice.ofJson?_eq_some_true_iff, ofExtensions?]
    split
    · next notice hNotice =>
        obtain ⟨deprecated, found⟩ := notice
        cases deprecated <;> simp [hNotice]
    · next hNone => simp [hNone]
  rw [hRead, noticeOf]
  constructor
  · intro hFlags
    cases hGet : extensions.get? "deprecation" with
    | none =>
        rw [hGet, Option.getD_none] at hFlags
        exact Declares.flat hGet hFlags
    | some notice =>
        rw [hGet, Option.getD_some] at hFlags
        exact Declares.nested hGet hFlags
  · intro hDeclares
    cases hDeclares with
    | nested hGet hFlags => rwa [hGet, Option.getD_some]
    | flat hGet hFlags => rwa [hGet, Option.getD_none]

end Deprecation

end DesignTokens

------------------------------------------------------------
-- The Audit
------------------------------------------------------------

namespace DesignTokens

/- The layer and the path that an item of the audit is of. -/
def DeprecatedToken.location (token : DeprecatedToken) : Location :=
  ⟨token.collection, token.path⟩

/- A leaf is listed with the replacement that it declares. -/
theorem DeprecatedToken.ofLeaf?_eq_some_iff
    {namer : Namer}
    {c : Collection}
    {leaf : Leaf}
    {token : DeprecatedToken} :
    ofLeaf? namer c leaf = some token ↔
      ∃ extensions,
        leaf.node.get? Record.extensionsKey = some extensions
          ∧ Deprecation.Declares extensions token.replacedBy
          ∧ token.identifier = namer.identifier leaf.path c
          ∧ token.collection = c
          ∧ token.path = leaf.path := by
  obtain ⟨identifier, collection, path, replacedBy⟩ := token
  simp only [ofLeaf?, Record.deprecationOf?, Option.map_eq_some_iff,
    Option.bind_eq_some_iff, mk.injEq,
    ← Deprecation.ofExtensions?_eq_some_iff]
  constructor
  · rintro ⟨⟨found⟩, ⟨extensions, hGet, hRead⟩, rfl, rfl, rfl, rfl⟩
    exact ⟨extensions, hGet, hRead, rfl, rfl, rfl⟩
  · rintro ⟨extensions, hGet, hRead, rfl, rfl, rfl⟩
    exact ⟨_, ⟨extensions, hGet, hRead⟩, rfl, rfl, rfl, rfl⟩

/- The items of a layer stand where some of its leaves do. -/
theorem DeprecatedToken.location_sublist
    (namer : Namer)
    (c : Collection)
    (leaves : List Leaf) :
    ((leaves.filterMap (ofLeaf? namer c)).map location).Sublist
      (leaves.map fun leaf => ⟨c, leaf.path⟩) := by
  induction leaves with
  | nil => exact List.Sublist.refl []
  | cons leaf leaves ih =>
      cases hItem : ofLeaf? namer c leaf with
      | none =>
          rw [List.filterMap_cons_none hItem, List.map_cons]
          exact ih.cons _
      | some token =>
          rcases ofLeaf?_eq_some_iff.mp hItem with
            ⟨-, -, -, -, hCollection, hPath⟩
          rw [List.filterMap_cons_some hItem, List.map_cons,
            List.map_cons, location, hCollection, hPath]
          exact ih.cons_cons _

namespace Store

variable (store : Store)
variable (namer : Namer)

/- No two items of the audit are of one leaf. -/
theorem audit_location_nodup :
    ((store.audit namer).map DeprecatedToken.location).Nodup := by
  have hItems (c : Collection) :=
    DeprecatedToken.location_sublist namer c (store.leaves c)
  rw [audit, List.map_flatMap, List.nodup_flatMap]
  constructor
  · intro c _
    have hPaths :
        ((store.leaves c).map
          fun leaf => Location.mk c leaf.path).Nodup := by
      have hInjective : Function.Injective (Location.mk c) :=
        fun _ _ hSame => (Location.mk.inj hSame).2
      simpa [Function.comp_def] using
        (store.leaves_path_nodup c).map hInjective
    exact hPaths.sublist (hItems c)
  · have hLayers : Collection.audited.Nodup := by decide
    apply hLayers.imp
    intro c d hNe l hC hD
    rcases List.mem_map.mp ((hItems c).subset hC) with ⟨_, -, rfl⟩
    rcases List.mem_map.mp ((hItems d).subset hD) with ⟨_, -, hSame⟩
    exact hNe (Location.mk.inj hSame).1.symm

/-
  The audit lists a leaf of the semantic or component layer
  exactly when its extensions declare a deprecation, and it lists
  it once: by its layer, path and identifier, and with the
  replacement that is declared.
-/
theorem audit_lists_iff :
    (∀ token,
        token ∈ store.audit namer ↔
          token.collection ∈ Collection.audited
            ∧ token.identifier =
                namer.identifier token.path token.collection
            ∧ ∃ node extensions,
                (store.tree token.collection).LeafBelow token.path
                    node
                  ∧ node.get? Record.extensionsKey = some extensions
                  ∧ Deprecation.Declares extensions token.replacedBy)
      ∧ ((store.audit namer).map DeprecatedToken.location).Nodup := by
  refine ⟨?_, store.audit_location_nodup namer⟩
  intro token
  simp only [audit, List.mem_flatMap, List.mem_filterMap,
    DeprecatedToken.ofLeaf?_eq_some_iff]
  constructor
  · rintro ⟨c, hAudited, leaf, hLeaf, extensions, hGet, hDeclares,
      hIdentifier, rfl, hPath⟩
    rw [mem_leaves_iff, ← hPath] at hLeaf
    rw [← hPath] at hIdentifier
    exact
      ⟨hAudited, hIdentifier, leaf.node, extensions, hLeaf, hGet,
        hDeclares⟩
  · rintro ⟨hAudited, hIdentifier, node, extensions, hLeaf, hGet,
      hDeclares⟩
    exact
      ⟨_, hAudited, ⟨token.path, node⟩,
        (store.mem_leaves_iff _ _).mpr hLeaf, extensions, hGet,
        hDeclares, hIdentifier, rfl, rfl⟩

/- Extensions with a flag, and a number for the replacement. -/
def mistypedExtensions : List (String × Json) :=
  [("deprecated", .boolean true), ("replacedBy", .number 5)]

/- A semantic token with these extensions. -/
def mistypedReplacement : Store where
  documents :=
    { primitives := .empty
      semantic :=
        { root := .object [
            ("a", .object [
              ("$value", .text "#000"),
              ("$extensions", .object mistypedExtensions)])]
          uniqueKeys := by
            simp [Json.UniqueKeys, Json.UniqueKeysMembers,
              mistypedExtensions] }
      component := .empty }
  isObject c := by cases c <;> rfl

/- The token is deprecated, but the audit does not list it. -/
theorem mistypedReplacement_unlisted :
    (∃ node,
        (mistypedReplacement.tree .semantic).LeafBelow ["a"] node
          ∧ node.get? Record.extensionsKey =
              some (.object mistypedExtensions))
      ∧ mistypedExtensions.lookup "deprecation" = none
      ∧ mistypedExtensions.lookup "deprecated" = some (.boolean true)
      ∧ mistypedReplacement.audit ⟨"token"⟩ = [] := by
  refine
    ⟨⟨_, ⟨"a", [], _, rfl, by decide, rfl, .here ?_⟩, ?_⟩, rfl, rfl,
      rfl⟩
  · decide
  · rfl

end Store

end DesignTokens
