import DesignTokens.Proofs.Emission.Walk
import DesignTokens.Proofs.Reference.Reordering

/-
  This file proves that the order of keys decides no more than
  the order of the output and which of several tokens gets an
  identifier that they share.

  Key definitions include:
    * `Leaf.Matches`
    * `Emission.CollisionFree`

  Key theorems include:
    * `Json.leavesAt_map_perm`
    * `Store.drafts_perm`
    * `claimAll_eq_self_iff`
    * `Store.collisionFree_iff`
    * `Store.key_order_immaterial`

  Two stores whose trees are equal as unordered JSON have the
  same drafts up to their order.  The identifiers that drafts
  want are then the same, and unless two drafts want one, all of
  them become entries.
-/

------------------------------------------------------------
-- Leaves in Any Order
------------------------------------------------------------

namespace DesignTokens

/- Leaves at one path that are equal up to the order of keys. -/
structure Leaf.Matches (leaf leaf' : Leaf) : Prop where
  path : leaf.path = leaf'.path
  node : leaf.node.Matches leaf'.node

namespace Json

variable {α : Type}
variable {f f' : Leaf → α}

/- Equal nodes are namespaces together. -/
theorem Matches.isNamespace_iff
    {node node' : Json}
    (hMatch : node.Matches node') :
    node.IsNamespace ↔ node'.IsNamespace := by
  have hStub : node.IsStub ↔ node'.IsStub := by
    simp only [IsStub, hMatch.mem_keys_iff, hMatch.isSome_get?]
  rw [IsNamespace, IsNamespace, hMatch.isObject_iff,
    Record.isRecord_iff hMatch, hStub]

/- A node that is no namespace is its only leaf. -/
theorem leavesAt_of_not_isNamespace
    {node : Json}
    (hNot : ¬ node.IsNamespace)
    (path : List String) :
    leavesAt path node = [⟨path, node⟩] := by
  cases node with
  | object ms => rw [leavesAt, if_neg hNot]
  | _ => rw [leavesAt]

/- The leaves below members stand member by member. -/
theorem leavesBelow_append
    (path : List String)
    (ms ms' : List (String × Json)) :
    leavesBelow path (ms ++ ms') =
      leavesBelow path ms ++ leavesBelow path ms' := by
  induction ms with
  | nil => rfl
  | cons m ms ih =>
      obtain ⟨key, node⟩ := m
      simp only [List.cons_append, leavesBelow, ih, List.append_assoc]

/- What is made of a single leaf is made of an equal one. -/
theorem leavesAt_map_eq
    (hLeaves : ∀ leaf leaf', leaf.Matches leaf' → f leaf = f' leaf')
    {node node' : Json}
    (path : List String)
    (hMatch : node.Matches node')
    (hNot : ¬ node.IsNamespace) :
    (leavesAt path node).map f = (leavesAt path node').map f' := by
  have hNot' : ¬ node'.IsNamespace :=
    fun hNamespace => hNot (hMatch.isNamespace_iff.mpr hNamespace)
  rw [leavesAt_of_not_isNamespace hNot,
    leavesAt_of_not_isNamespace hNot', List.map_singleton,
    List.map_singleton,
    hLeaves ⟨path, node⟩ ⟨path, node'⟩ ⟨rfl, hMatch⟩]

mutual

/-
  What is made of the leaves of a node is made of the leaves of
  an equal one, in some order.
-/
theorem leavesAt_map_perm
    (hLeaves : ∀ leaf leaf', leaf.Matches leaf' → f leaf = f' leaf') :
    (node : Json) →
      ∀ node' path,
        node.Matches node' →
          ((leavesAt path node).map f).Perm
            ((leavesAt path node').map f')
| object ms, node', path, hMatch => by
    by_cases hNamespace : (object ms).IsNamespace
    · have hNamespace' := hMatch.isNamespace_iff.mp hNamespace
      obtain ⟨⟨ms', rfl, hMembers⟩, hUnique⟩ := hMatch
      rw [leavesAt, if_pos hNamespace, leavesAt, if_pos hNamespace']
      exact leavesBelow_map_perm hLeaves ms ms' path hMembers hUnique.2
    · rw [leavesAt_map_eq hLeaves path hMatch hNamespace]
| null, _, path, hMatch => by
    rw [leavesAt_map_eq hLeaves path hMatch fun h => nomatch h.1]
| boolean b, _, path, hMatch => by
    rw [leavesAt_map_eq hLeaves path hMatch fun h => nomatch h.1]
| number x, _, path, hMatch => by
    rw [leavesAt_map_eq hLeaves path hMatch fun h => nomatch h.1]
| text s, _, path, hMatch => by
    rw [leavesAt_map_eq hLeaves path hMatch fun h => nomatch h.1]
| array items, _, path, hMatch => by
    rw [leavesAt_map_eq hLeaves path hMatch fun h => nomatch h.1]

theorem leavesBelow_map_perm
    (hLeaves : ∀ leaf leaf', leaf.Matches leaf' → f leaf = f' leaf') :
    (ms : List (String × Json)) →
      ∀ ms' path,
        ReorderedMembers ms ms' →
          UniqueKeysMembers ms' →
            ((leavesBelow path ms).map f).Perm
              ((leavesBelow path ms').map f')
| [], _, path, hMembers, _ => by
    rw [hMembers]
    exact List.Perm.refl []
| (key, node) :: ms, _, path, hMembers, hUnique => by
    rcases hMembers with ⟨node', before, after, rfl, hNode, hLater⟩
    rw [uniqueKeysMembers_iff] at hUnique
    have hMatch : node.Matches node' :=
      ⟨hNode, hUnique (key, node') (by simp)⟩
    have hRest : UniqueKeysMembers (before ++ after) := by
      rw [uniqueKeysMembers_iff]
      intro m hMem
      apply hUnique m
      rw [List.mem_append] at hMem ⊢
      exact hMem.imp_right (List.mem_cons_of_mem _)
    have hMember :
        ((if IsReserved key then [] else leavesAt (path ++ [key]) node).map
            f).Perm
          ((if IsReserved key then []
              else leavesAt (path ++ [key]) node').map f') := by
      split
      · exact List.Perm.refl []
      · exact leavesAt_map_perm hLeaves node node' _ hMatch
    have hOthers :=
      leavesBelow_map_perm hLeaves ms (before ++ after) path hLater hRest
    rw [leavesBelow_append, List.map_append] at hOthers
    rw [leavesBelow, leavesBelow_append, leavesBelow, List.map_append,
      List.map_append, List.map_append]
    -- the leaves of the member pass those of the members before it
    exact
      (hMember.append hOthers).trans (List.perm_append_comm_assoc _ _ _)

end

end Json

namespace Store

variable {store store' : Store}

/- What is made of a layer's leaves is made of those of the other. -/
theorem leaves_map_perm
    {α : Type}
    {f f' : Leaf → α}
    (hStores : store.Reordered store')
    (hLeaves : ∀ leaf leaf', leaf.Matches leaf' → f leaf = f' leaf')
    (c : Collection) :
    ((store.leaves c).map f).Perm ((store'.leaves c).map f') := by
  have hRoot := hStores.tree_matches c
  exact
    Json.leavesBelow_map_perm hLeaves _ _ [] hRoot.members
      hRoot.uniqueKeys.members

/- Equal leaves have one draft. -/
theorem draft_eq
    (hStores : store.Reordered store')
    (options : EmitOptions)
    (c : Collection)
    {leaf leaf' : Leaf}
    (hLeaf : leaf.Matches leaf') :
    store.draft options c leaf = store'.draft options c leaf' := by
  have hRecord := Record.ofJson_agree hLeaf.node
  unfold draft draftRecord
  rw [Leaf.record_eq, Leaf.record_eq, hLeaf.path]
  generalize Record.ofJson leaf.node = result,
    Record.ofJson leaf'.node = result' at hRecord ⊢
  cases hRecord with
  | error e => rfl
  | @ok record record' hRecord =>
      have hLiteral :=
        resolve_agree hStores options.limit hRecord.value
          ⟨c, record.hint⟩
      dsimp only
      unfold resolveRecord
      rw [← hRecord.hint, ← hRecord.type, ← hRecord.description]
      generalize store.resolve _ _ _ = literal,
        store'.resolve _ _ _ = literal' at hLiteral ⊢
      cases hLiteral with
      | error e => rfl
      | ok hLiteral =>
          dsimp only
          rw [Literal.valueText_eq hLiteral]

/- The drafts are the same up to their order. -/
theorem drafts_perm
    (hStores : store.Reordered store')
    (options : EmitOptions) :
    (store.drafts options).Perm (store'.drafts options) := by
  apply List.Perm.flatMap_left
  intro c _
  apply leaves_map_perm hStores
  intro leaf leaf' hLeaf
  exact draft_eq hStores options c hLeaf

/- So are the deprecated tokens. -/
theorem audit_perm
    (hStores : store.Reordered store')
    (namer : Namer) :
    (store.audit namer).Perm (store'.audit namer) := by
  apply List.Perm.flatMap_left
  intro c _
  have hItems :
      ((store.leaves c).map (DeprecatedToken.ofLeaf? namer c)).Perm
        ((store'.leaves c).map (DeprecatedToken.ofLeaf? namer c)) := by
    apply leaves_map_perm hStores
    intro leaf leaf' hLeaf
    rw [DeprecatedToken.ofLeaf?, DeprecatedToken.ofLeaf?,
      Record.deprecationOf?_eq hLeaf.node, hLeaf.path]
  have hFound := hItems.filterMap id
  rwa [List.filterMap_map, List.filterMap_map] at hFound

end Store

end DesignTokens

------------------------------------------------------------
-- Emissions without Collisions
------------------------------------------------------------

namespace DesignTokens

/- The entry that a draft has, if it has one. -/
def Draft.entry? (d : Draft) : Option Entry :=
  d.result.toOption

/- A draft has lost its entry to one with the identifier. -/
def Draft.IsCollision (d : Draft) : Prop :=
  ∃ identifier path, d.result = .error (.duplicate identifier path)

/- No token is left out because its identifier is taken. -/
def Emission.CollisionFree (emission : Emission) : Prop :=
  ∀ w ∈ emission.warnings, ∀ identifier path,
    w.cause ≠ .duplicate identifier path

/- Claims that meet no collision change nothing. -/
theorem claimAll_eq_self
    {claimed : List Entry}
    {ds : List Draft}
    (hFree : ∀ d ∈ claimAll claimed ds, ¬ d.IsCollision) :
    claimAll claimed ds = ds := by
  induction ds generalizing claimed with
  | nil => rfl
  | cons d ds ih =>
      rw [claimAll] at hFree ⊢
      split at hFree
      · exact
          congrArg (d :: ·)
            (ih fun x hMem => hFree x (List.mem_cons_of_mem _ hMem))
      · split at hFree
        · exact absurd ⟨_, _, rfl⟩ (hFree _ List.mem_cons_self)
        · exact
            congrArg (d :: ·)
              (ih fun x hMem => hFree x (List.mem_cons_of_mem _ hMem))

/- Claims change nothing exactly when all identifiers differ. -/
theorem claimAll_eq_self_iff
    {claimed : List Entry}
    (hClaimed : (claimed.map Entry.identifier).Nodup)
    (ds : List Draft) :
    claimAll claimed ds = ds ↔
      ((claimed ++ ds.filterMap Draft.entry?).map
        Entry.identifier).Nodup := by
  induction ds generalizing claimed with
  | nil => simpa [claimAll] using hClaimed
  | cons d ds ih =>
      cases hResult : d.result with
      | error cause =>
          have hEntry : d.entry? = none := by
            rw [Draft.entry?, hResult]
            rfl
          rw [List.filterMap_cons_none hEntry, ← ih hClaimed]
          simp only [claimAll, hResult, List.cons.injEq, true_and]
      | ok entry =>
          have hEntry : d.entry? = some entry := by
            rw [Draft.entry?, hResult]
            rfl
          rw [List.filterMap_cons_some hEntry]
          cases hFind :
              claimed.find? (·.identifier = entry.identifier) with
          | some first =>
              have hMem := List.mem_of_find?_eq_some hFind
              have hSame := List.find?_some hFind
              apply iff_of_false
              · intro hSelf
                simp only [claimAll, hResult, hFind, List.cons.injEq]
                  at hSelf
                have hLost := congrArg Draft.result hSelf.1
                rw [hResult] at hLost
                cases hLost
              · rw [List.map_append, List.nodup_append']
                rintro ⟨-, -, hDisjoint⟩
                apply hDisjoint (List.mem_map_of_mem hMem)
                simp only [decide_eq_true_iff] at hSame
                simp [hSame]
          | none =>
              have hNew :
                  ((claimed ++ [entry]).map Entry.identifier).Nodup := by
                rw [List.map_append, List.nodup_append']
                refine ⟨hClaimed, by simp, ?_⟩
                simpa using hFind
              rw [List.append_cons, ← ih hNew]
              simp only [claimAll, hResult, hFind, List.cons.injEq,
                true_and]

/- An emission shows the collisions of its drafts. -/
theorem Emission.collisionFree_ofDrafts_iff
    {settled : List Draft}
    {deprecated : List DeprecatedToken} :
    (ofDrafts settled deprecated).CollisionFree ↔
      ∀ d ∈ settled, ¬ d.IsCollision := by
  simp only [CollisionFree, ofDrafts, List.mem_filterMap,
    Draft.IsCollision]
  constructor
  · rintro hFree d hMem ⟨identifier, path, hResult⟩
    apply hFree ⟨d.collection, d.path, _⟩ _ identifier path rfl
    exact ⟨d, hMem, by rw [Draft.warning?, hResult]⟩
  · rintro hFree w ⟨d, hMem, hWarning⟩ identifier path hCause
    apply hFree d hMem
    unfold Draft.warning? at hWarning
    split at hWarning
    · cases hWarning
    · next hResult =>
        cases hWarning
        exact ⟨identifier, path, hCause ▸ hResult⟩

namespace Store

variable {store store' : Store}

/- Drafts have no collisions of their own. -/
theorem not_isCollision_of_mem_drafts
    {options : EmitOptions}
    {d : Draft}
    (hMem : d ∈ store.drafts options) :
    ¬ d.IsCollision := by
  rintro ⟨identifier, path, hResult⟩
  rw [drafts_eq, List.mem_map] at hMem
  rcases hMem with ⟨x, -, rfl⟩
  rw [draft_result_eq_error_iff] at hResult
  cases hResult

/-
  An emission is free of collisions exactly when no two of its
  drafts have one identifier.
-/
theorem collisionFree_iff
    (store : Store)
    (options : EmitOptions) :
    (store.emit options).CollisionFree ↔
      (((store.drafts options).filterMap Draft.entry?).map
        Entry.identifier).Nodup := by
  have hNone : (([] : List Entry).map Entry.identifier).Nodup :=
    List.nodup_nil
  have hDrafts := claimAll_eq_self_iff hNone (store.drafts options)
  rw [List.nil_append] at hDrafts
  rw [← hDrafts, emit, Emission.collisionFree_ofDrafts_iff]
  constructor
  · exact claimAll_eq_self
  · intro hSame d hMem
    rw [hSame] at hMem
    exact not_isCollision_of_mem_drafts hMem

/- Then it consists of its drafts. -/
theorem emit_eq_ofDrafts
    {options : EmitOptions}
    (hFree : (store.emit options).CollisionFree) :
    store.emit options =
      Emission.ofDrafts (store.drafts options)
        (store.audit options.namer) := by
  rw [emit, Emission.collisionFree_ofDrafts_iff] at hFree
  rw [emit, claimAll_eq_self hFree]

/- The identifiers of a section are those that its drafts have. -/
theorem exists_entry_iff
    (store : Store)
    (options : EmitOptions)
    (c : Collection)
    (identifier : String) :
    (∃ entry ∈ (store.emit options).entries.get c,
        entry.identifier = identifier) ↔
      ∃ d ∈ store.drafts options, ∃ entry,
        d.collection = c
          ∧ d.result = .ok entry
          ∧ entry.identifier = identifier := by
  simp only [emit_get, drafts_eq, ← store.ledger_leaves options,
    List.mem_filterMap, List.mem_map, Account.entryIn?_eq_some_iff]
  constructor
  · rintro ⟨entry, ⟨a, hMem, hLayer, hFate⟩, hSame⟩
    have hYields := ledger_yields hMem hFate
    exact
      ⟨_, ⟨_, ⟨a, hMem, rfl⟩, rfl⟩, entry, hLayer,
        hYields.draft_result, hSame⟩
  · rintro
      ⟨_, ⟨_, ⟨b, hMem, rfl⟩, rfl⟩, entry, hLayer, hResult, hSame⟩
    have hYields := (draft_result_eq_ok_iff entry).mp hResult
    have hSplit :
        store.ledger options = store.ledger options ++ [] := by simp
    rcases (ledger_taken_iff hSplit identifier).mpr
        ⟨b, hMem, entry, hYields, hSame⟩ with ⟨first, hFirst, hFound⟩
    rcases Account.mem_kept_iff.mp hFirst with ⟨a, hAccount, hFate⟩
    -- the token that got the identifier is of the same layer
    have hNamed := (ledger_yields hAccount hFate).identifier_eq
    rw [hFound, ← hSame, hYields.identifier_eq] at hNamed
    have hSameLayer := Namer.collection_eq_of_identifier_eq hNamed
    exact ⟨first, ⟨a, hAccount, hSameLayer ▸ hLayer, hFate⟩, hFound⟩

end Store

end DesignTokens

------------------------------------------------------------
-- The Order of Keys
------------------------------------------------------------

namespace DesignTokens

namespace Store

variable {store store' : Store}

/- The sections have the same identifiers. -/
theorem exists_entry_iff_of_reordered
    (hStores : store.Reordered store')
    (options : EmitOptions)
    (c : Collection)
    (identifier : String) :
    (∃ entry ∈ (store.emit options).entries.get c,
        entry.identifier = identifier) ↔
      ∃ entry ∈ (store'.emit options).entries.get c,
        entry.identifier = identifier := by
  simp only [exists_entry_iff, (drafts_perm hStores options).mem_iff]

/- Either both emissions are free of collisions or none is. -/
theorem collisionFree_iff_of_reordered
    (hStores : store.Reordered store')
    (options : EmitOptions) :
    (store.emit options).CollisionFree ↔
      (store'.emit options).CollisionFree := by
  have hEntries := (drafts_perm hStores options).filterMap Draft.entry?
  rw [collisionFree_iff, collisionFree_iff]
  exact (hEntries.map Entry.identifier).nodup_iff

/- Without collisions the sections and warnings are the same. -/
theorem emit_perm
    (hStores : store.Reordered store')
    (options : EmitOptions)
    (hFree : (store.emit options).CollisionFree) :
    (∀ c,
        ((store.emit options).entries.get c).Perm
          ((store'.emit options).entries.get c))
      ∧ (store.emit options).warnings.Perm
          (store'.emit options).warnings := by
  have hDrafts := drafts_perm hStores options
  have hFree' := (collisionFree_iff_of_reordered hStores options).mp hFree
  rw [emit_eq_ofDrafts hFree, emit_eq_ofDrafts hFree']
  constructor
  · intro c
    rw [Emission.ofDrafts, Emission.ofDrafts, Layers.get_ofFn,
      Layers.get_ofFn]
    exact hDrafts.filterMap _
  · exact hDrafts.filterMap _

/-
  The order of keys decides the order of the output and who wins
  a collision, and nothing else.  Where the trees of two stores
  are equal as unordered JSON, every value resolves to the same
  error or to equal literals, and all sections have the same
  identifiers.  If one emission is free of collisions, so is the
  other one, and the two are the same up to their order.
-/
theorem key_order_immaterial
    (hTrees : ∀ c, (store.tree c).Reordered (store'.tree c)) :
    (∀ limit raw scope,
        Agree (fun l l' => l.toJson.Reordered l'.toJson)
          (store.resolve limit raw scope)
          (store'.resolve limit raw scope))
      ∧ ∀ options,
          (∀ c identifier,
              (∃ entry ∈ (store.emit options).entries.get c,
                  entry.identifier = identifier) ↔
                ∃ entry ∈ (store'.emit options).entries.get c,
                  entry.identifier = identifier)
            ∧ (store.emit options).deprecated.Perm
                (store'.emit options).deprecated
            ∧ ((store.emit options).CollisionFree →
                (store'.emit options).CollisionFree
                  ∧ (∀ c,
                      ((store.emit options).entries.get c).Perm
                        ((store'.emit options).entries.get c))
                  ∧ (store.emit options).warnings.Perm
                      (store'.emit options).warnings) := by
  have hStores : store.Reordered store' := hTrees
  refine ⟨?values, ?emissions⟩
  case values =>
    intro limit raw scope
    exact
      resolve_agree hStores limit (Json.reordered_refl raw) scope
  case emissions =>
    intro options
    refine
      ⟨exists_entry_iff_of_reordered hStores options,
        audit_perm hStores options.namer, ?_⟩
    intro hFree
    exact
      ⟨(collisionFree_iff_of_reordered hStores options).mp hFree,
        emit_perm hStores options hFree⟩

/- Two primitives, and a deprecated token that points at one. -/
def orderedStore : Store where
  documents :=
    { primitives :=
        { root := .object [
            ("a", .object [("$value", .text "\x7bb\x7d")]),
            ("b", .object [("$value", .text "#000")])]
          uniqueKeys := by
            simp [Json.UniqueKeys, Json.UniqueKeysMembers] }
      semantic :=
        { root := .object [
            ("old", .object [
              ("$value", .text "\x7ba\x7d"),
              ("$extensions", .object [
                ("deprecated", .boolean true),
                ("replacedBy", .text "b")])])]
          uniqueKeys := by
            simp [Json.UniqueKeys, Json.UniqueKeysMembers] }
      component := .empty }
  isObject c := by cases c <;> rfl

/- The same trees with other orders of keys, also further down. -/
def shuffledStore : Store where
  documents :=
    { primitives :=
        { root := .object [
            ("b", .object [("$value", .text "#000")]),
            ("a", .object [("$value", .text "\x7bb\x7d")])]
          uniqueKeys := by
            simp [Json.UniqueKeys, Json.UniqueKeysMembers] }
      semantic :=
        { root := .object [
            ("old", .object [
              ("$extensions", .object [
                ("replacedBy", .text "b"),
                ("deprecated", .boolean true)]),
              ("$value", .text "\x7ba\x7d")])]
          uniqueKeys := by
            simp [Json.UniqueKeys, Json.UniqueKeysMembers] }
      component := .empty }
  isObject c := by cases c <;> rfl

/- Both resolve references and emit tokens alike. -/
theorem shuffledStore_alike :
    (∀ c, (orderedStore.tree c).Reordered (shuffledStore.tree c))
      ∧ Agree (fun l l' => l.toJson.Reordered l'.toJson)
          (orderedStore.resolve 10 (.text "\x7bold\x7d")
            ⟨.semantic, none⟩)
          (shuffledStore.resolve 10 (.text "\x7bold\x7d")
            ⟨.semantic, none⟩)
      ∧ (orderedStore.emit ⟨⟨"token"⟩, 10⟩).CollisionFree
      ∧ (shuffledStore.emit ⟨⟨"token"⟩, 10⟩).CollisionFree
      ∧ (∀ c,
          ((orderedStore.emit ⟨⟨"token"⟩, 10⟩).entries.get c).Perm
            ((shuffledStore.emit ⟨⟨"token"⟩, 10⟩).entries.get c))
      ∧ (orderedStore.emit ⟨⟨"token"⟩, 10⟩).warnings.Perm
          (shuffledStore.emit ⟨⟨"token"⟩, 10⟩).warnings := by
  have hTrees (c : Collection) :
      (orderedStore.tree c).Reordered (shuffledStore.tree c) := by
    cases c with
    | primitives =>
        exact ⟨_, rfl, Json.reorderedMembers_of_perm (.swap _ _ [])⟩
    | semantic =>
        have hExtensions :
            (Json.object [
              ("deprecated", .boolean true),
              ("replacedBy", .text "b")]).Reordered
              (.object [
                ("replacedBy", .text "b"),
                ("deprecated", .boolean true)]) :=
          ⟨_, rfl, Json.reorderedMembers_of_perm (.swap _ _ [])⟩
        have hToken :
            Json.ReorderedMembers
              [("$value", .text "\x7ba\x7d"),
                ("$extensions", .object [
                  ("deprecated", .boolean true),
                  ("replacedBy", .text "b")])]
              [("$extensions", .object [
                  ("replacedBy", .text "b"),
                  ("deprecated", .boolean true)]),
                ("$value", .text "\x7ba\x7d")] :=
          ⟨_, [_], [], rfl, rfl, _, [], [], rfl, hExtensions, rfl⟩
        exact ⟨_, rfl, _, [], [], rfl, ⟨_, rfl, hToken⟩, rfl⟩
    | component => exact ⟨_, rfl, rfl⟩
  have hFree : (orderedStore.emit ⟨⟨"token"⟩, 10⟩).CollisionFree :=
    (collisionFree_iff _ _).mpr (by decide +kernel)
  have hEmissions :=
    ((key_order_immaterial hTrees).2 ⟨⟨"token"⟩, 10⟩).2.2 hFree
  exact
    ⟨hTrees, (key_order_immaterial hTrees).1 _ _ _, hFree, hEmissions⟩

end Store

end DesignTokens
