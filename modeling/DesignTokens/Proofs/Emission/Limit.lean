import DesignTokens.Proofs.Emission.Report
import DesignTokens.Proofs.Reference.Limit

/-
  This file proves that raising the limit of hops only adds
  variables to an emission.

  Key definitions include:
    * `DropCause.Lasts`
    * `Store.CutShortBefore`

  Key theorems include:
    * `Store.draft_eq_or_exceeds`
    * `Store.cutShortBefore_of_yields`
    * `Store.exists_entry_of_limit_le`
    * `Store.warning_of_limit_le`
    * `Store.emit_eq_of_card_lt`
    * `Store.raised_limit_adds_variables`

  A leaf is drafted the same under a larger limit unless its
  chain was cut short at the smaller one.  A leaf that no longer
  is may claim its identifier before another one that had it, so
  the identifier stays but may come to stand for that leaf.
-/

------------------------------------------------------------
-- Drafts under Two Limits
------------------------------------------------------------

namespace DesignTokens

namespace Store

variable {store : Store}
variable {namer : Namer}
variable {limit limit' : Nat}
variable {c : Collection}
variable {leaf : Leaf}

/-
  A larger limit changes only the drafts of leaves whose chains
  exceed the smaller one.
-/
theorem draft_eq_or_exceeds
    (store : Store)
    (namer : Namer)
    (hLimit : limit ≤ limit')
    (c : Collection)
    (leaf : Leaf) :
    store.draft ⟨namer, limit'⟩ c leaf =
        store.draft ⟨namer, limit⟩ c leaf
      ∨ ∃ r,
          store.Fails ⟨namer, limit⟩ c leaf
            (.unresolved (namer.identifier leaf.path c)
              (.depthExceeded r limit)) := by
  cases hRecord : leaf.record with
  | error e =>
      left
      simp only [draft, hRecord]
  | ok record =>
      by_cases hExceeds :
          Exceeds (store.resolveRecord limit record c)
      · right
        rcases store.referenceAfter_of_exceeds _ _ hExceeds with
          ⟨r, -, hResult⟩
        exact ⟨r, Fails.unresolved hRecord hResult⟩
      · left
        have hSame :
            store.resolveRecord limit' record c =
              store.resolveRecord limit record c :=
          store.resolve_eq_of_limit_le _ _ hExceeds hLimit
        simp only [draft, hRecord, draftRecord, hSame]

/- What a leaf yields under a limit it yields under larger ones. -/
theorem Yields.of_limit_le
    {entry : Entry}
    (hLimit : limit ≤ limit')
    (hYields : store.Yields ⟨namer, limit⟩ c leaf entry) :
    store.Yields ⟨namer, limit'⟩ c leaf entry := by
  rw [← draft_result_eq_ok_iff]
  have hResult := hYields.draft_result
  rcases store.draft_eq_or_exceeds namer hLimit c leaf with
    hSame | ⟨r, hFails⟩
  · rw [hSame, hResult]
  · rw [hFails.draft_result] at hResult
    cases hResult

/- A limit above the number of locations is never exceeded. -/
theorem draft_eq_of_card_lt
    (hCard : store.locations.card < limit)
    (hLimit : limit ≤ limit') :
    store.draft ⟨namer, limit'⟩ c leaf =
      store.draft ⟨namer, limit⟩ c leaf := by
  rcases store.draft_eq_or_exceeds namer hLimit c leaf with
    hSame | ⟨r, hFails⟩
  · exact hSame
  · cases hFails with
    | @unresolved record _ _ hResult =>
        have hOutcome :=
          store.outcome_resolve limit record.value ⟨c, record.hint⟩
        exact absurd ⟨_, _, hResult⟩ (hOutcome.not_exceeds hCard)

/- So all such limits give one emission. -/
theorem emit_eq_of_card_lt
    (hCard : store.locations.card < limit)
    (hLimit : limit ≤ limit') :
    store.emit ⟨namer, limit'⟩ = store.emit ⟨namer, limit⟩ := by
  have hDrafts :
      store.drafts ⟨namer, limit'⟩ = store.drafts ⟨namer, limit⟩ := by
    rw [drafts_eq, drafts_eq]
    exact
      List.map_congr_left fun _ _ => draft_eq_of_card_lt hCard hLimit
  rw [emit, emit, hDrafts]

end Store

end DesignTokens

------------------------------------------------------------
-- Places in Two Ledgers
------------------------------------------------------------

namespace DesignTokens

namespace Store

variable {store : Store}
variable {options options' : EmitOptions}
variable {before after : List Account}
variable {a b : Account}

/- The ledgers of a store under two options have the same places. -/
theorem ledger_places_eq
    (store : Store)
    (options options' : EmitOptions) :
    (store.ledger options').map Account.place =
      (store.ledger options).map Account.place :=
  (store.ledger_leaves options').trans
    (store.ledger_leaves options).symm

/- So a split of the one splits the other at the same place. -/
theorem exists_ledger_split
    (options' : EmitOptions)
    (hSplit : store.ledger options = before ++ a :: after) :
    ∃ before' a' after',
      store.ledger options' = before' ++ a' :: after'
        ∧ before'.map Account.place = before.map Account.place
        ∧ a'.collection = a.collection
        ∧ a'.leaf = a.leaf := by
  have hPlaces := store.ledger_places_eq options options'
  rw [hSplit, List.map_append, List.map_cons,
    List.map_eq_append_iff] at hPlaces
  rcases hPlaces with ⟨before', rest, hSplit', hBefore, hRest⟩
  rw [List.map_eq_cons_iff] at hRest
  rcases hRest with ⟨a', after', rfl, hPlace, -⟩
  rcases Prod.mk.inj hPlace with ⟨hLayer, hLeaf⟩
  exact ⟨before', a', after', hSplit', hBefore, hLayer, hLeaf⟩

/- Accounts of a layer are in the order of its leaves. -/
theorem paths_sublist_of_split
    (hSplit : store.ledger options = before ++ a :: after)
    (hMem : b ∈ before)
    (hLayer : b.collection = a.collection) :
    [b.leaf.path, a.leaf.path].Sublist
      ((store.leaves a.collection).map Leaf.path) := by
  have hPair : [b, a].Sublist (store.ledger options) := by
    rw [hSplit]
    exact
      (List.singleton_sublist.mpr hMem).append
        (List.singleton_sublist.mpr List.mem_cons_self)
  have hPlaces := (hPair.map Account.place).filter
    fun x => x.1 = a.collection
  have hLedger :
      (store.ledger options).map Account.place = store.placedLeaves :=
    store.ledger_leaves options
  rw [hLedger, placedLeaves_filter] at hPlaces
  have hPaths := hPlaces.map fun x => x.2.path
  simpa [Account.place, hLayer, Function.comp_def] using hPaths

end Store

end DesignTokens

------------------------------------------------------------
-- Raising the Limit
------------------------------------------------------------

namespace DesignTokens

/-
  Causes that a larger limit does not remove: the record does
  not read, its value does not format, or its chain fails before
  the limit is reached.
-/
def DropCause.Lasts : DropCause → Prop
| malformed _ => True
| unresolved _ e => ∀ r limit, e ≠ .depthExceeded r limit
| unformattable _ _ => True
| duplicate _ _ => False

namespace Store

/-
  The leaf at a path stands before that of an entry of its layer
  and has the same identifier, but it was dropped because its
  chain exceeds the limit.
-/
structure CutShortBefore
    (store : Store)
    (options : EmitOptions)
    (c : Collection)
    (path : List String)
    (entry : Entry) : Prop where
  earlier :
    [path, entry.path].Sublist ((store.leaves c).map Leaf.path)
  report :
    ∃ r,
      (store.emit options).Reports c path
        (.error
          (.unresolved entry.identifier
            (.depthExceeded r options.limit)))

variable {store : Store}
variable {namer : Namer}
variable {limit limit' : Nat}

/-
  A leaf before that of an entry that has its identifier under a
  larger limit was cut short under the smaller one.
-/
theorem cutShortBefore_of_yields
    {before after : List Account}
    {a b : Account}
    {entry first : Entry}
    (hLimit : limit ≤ limit')
    (hSplit :
      store.ledger ⟨namer, limit⟩ = before ++ a :: after)
    (hFate : a.fate = .ok entry)
    (hBefore : b ∈ before)
    (hEarlier :
      store.Yields ⟨namer, limit'⟩ b.collection b.leaf first)
    (hSame : first.identifier = entry.identifier) :
    b.collection = a.collection
      ∧ store.CutShortBefore ⟨namer, limit⟩ a.collection first.path
          entry := by
  rcases (ledger_fate_ok_iff hSplit entry).mp hFate with
    ⟨hYields, hFirst⟩
  have hName := hEarlier.identifier_eq
  have hLayers : b.collection = a.collection := by
    rw [hSame, hYields.identifier_eq] at hName
    exact (Namer.collection_eq_of_identifier_eq hName).symm
  rcases store.draft_eq_or_exceeds namer hLimit b.collection b.leaf
    with hDraft | ⟨r, hFails⟩
  · rw [← draft_result_eq_ok_iff, hDraft, draft_result_eq_ok_iff]
      at hEarlier
    exact absurd hSame (hFirst b hBefore first hEarlier)
  · have hPaths := paths_sublist_of_split hSplit hBefore hLayers
    rw [← hEarlier.path_eq, ← hYields.path_eq] at hPaths
    have hLedger : b ∈ store.ledger ⟨namer, limit⟩ := by
      rw [hSplit]
      exact List.mem_append_left _ hBefore
    have hReport := hFails.reports (leaf_mem_of_mem_ledger hLedger)
    rw [← hName, hSame, hLayers, ← hEarlier.path_eq] at hReport
    exact ⟨hLayers, hPaths, r, hReport⟩

/-
  A variable stays under a larger limit, unless an earlier leaf
  that was cut short takes its identifier.
-/
theorem exists_entry_of_limit_le
    {c : Collection}
    {entry : Entry}
    (hLimit : limit ≤ limit')
    (hEntry : entry ∈ (store.emit ⟨namer, limit⟩).entries.get c) :
    ∃ entry' ∈ (store.emit ⟨namer, limit'⟩).entries.get c,
      entry'.identifier = entry.identifier
        ∧ (entry' = entry
          ∨ store.CutShortBefore ⟨namer, limit⟩ c entry'.path
              entry) := by
  simp only [emit_get, List.mem_filterMap,
    Account.entryIn?_eq_some_iff] at hEntry ⊢
  rcases hEntry with ⟨a, hMem, rfl, hFate⟩
  rcases List.append_of_mem hMem with ⟨before, after, hSplit⟩
  rcases exists_ledger_split ⟨namer, limit'⟩ hSplit with
    ⟨before', a', after', hSplit', hPlaces, hLayer, hLeaf⟩
  have hYields' :
      store.Yields ⟨namer, limit'⟩ a'.collection a'.leaf entry := by
    rw [hLayer, hLeaf]
    exact (ledger_yields hMem hFate).of_limit_le hLimit
  by_cases hTaken :
      ∃ first ∈ Account.kept before',
        first.identifier = entry.identifier
  · rcases hTaken with ⟨first, hKept, hSame⟩
    rcases Account.mem_kept_iff.mp hKept with ⟨b', hMem', hFate'⟩
    have hLedger' : b' ∈ store.ledger ⟨namer, limit'⟩ := by
      rw [hSplit']
      exact List.mem_append_left _ hMem'
    -- the account of the same leaf under the smaller limit
    have hPlace : b'.place ∈ before.map Account.place := by
      rw [← hPlaces]
      exact List.mem_map_of_mem hMem'
    rcases List.mem_map.mp hPlace with ⟨b, hBefore, hPlace⟩
    rcases Prod.mk.inj hPlace with ⟨hLayerB, hLeafB⟩
    have hEarlier := ledger_yields hLedger' hFate'
    rw [← hLayerB, ← hLeafB] at hEarlier
    rcases
      cutShortBefore_of_yields hLimit hSplit hFate hBefore hEarlier
        hSame with
      ⟨hLayers, hCut⟩
    exact
      ⟨first, ⟨b', hLedger', hLayerB.symm.trans hLayers, hFate'⟩,
        hSame, Or.inr hCut⟩
  · rw [ledger_taken_iff hSplit'] at hTaken
    have hFate' : a'.fate = .ok entry := by
      rw [ledger_fate_ok_iff hSplit']
      refine ⟨hYields', fun b hMem other hOther hSame => ?_⟩
      exact hTaken ⟨b, hMem, other, hOther, hSame⟩
    have hLedger' : a' ∈ store.ledger ⟨namer, limit'⟩ := by
      simp [hSplit']
    exact ⟨entry, ⟨a', hLedger', hLayer, hFate'⟩, rfl, Or.inl rfl⟩

/- A warning whose cause lasts stays under a larger limit. -/
theorem warning_of_limit_le
    {w : Warning}
    (hLimit : limit ≤ limit')
    (hWarning : w ∈ (store.emit ⟨namer, limit⟩).warnings)
    (hLasts : w.cause.Lasts) :
    w ∈ (store.emit ⟨namer, limit'⟩).warnings := by
  rcases w with ⟨c, path, cause⟩
  change (store.emit _).Reports c path (.error cause) at hWarning
  change (store.emit _).Reports c path (.error cause)
  rcases reports_iff.mp hWarning with ⟨a, hMem, rfl, rfl, hFate⟩
  rcases List.append_of_mem hMem with ⟨before, after, hSplit⟩
  have hDrops := (ledger_fate_error_iff hSplit cause).mp hFate
  cases hDrops with
  | duplicate => exact hLasts.elim
  | failed hFails =>
      have hFails' :
          store.Fails ⟨namer, limit'⟩ a.collection a.leaf cause := by
        rw [← draft_result_eq_error_iff] at hFails ⊢
        rcases
          store.draft_eq_or_exceeds namer hLimit a.collection a.leaf
          with hSame | ⟨r, hExceeds⟩
        · rw [hSame, hFails]
        · rw [hExceeds.draft_result] at hFails
          cases hFails
          exact absurd rfl (hLasts r limit)
      exact hFails'.reports (leaf_mem_of_mem_ledger hMem)

/-
  Raising the limit of hops only adds variables.  Every
  identifier stays in its section, and so do its value and its
  path, unless a leaf before it was cut short at the smaller
  limit and now takes the identifier.  Warnings stay when the
  limit has nothing to do with them, and the audit does not
  change.  From the number of addressable locations on, the
  limit makes no difference.
-/
theorem raised_limit_adds_variables
    (store : Store)
    (namer : Namer)
    (hLimit : limit ≤ limit') :
    (∀ c, ∀ entry ∈ (store.emit ⟨namer, limit⟩).entries.get c,
      ∃ entry' ∈ (store.emit ⟨namer, limit'⟩).entries.get c,
        entry'.identifier = entry.identifier
          ∧ (entry' = entry
            ∨ store.CutShortBefore ⟨namer, limit⟩ c entry'.path
                entry))
      ∧ (∀ w ∈ (store.emit ⟨namer, limit⟩).warnings,
          w.cause.Lasts →
            w ∈ (store.emit ⟨namer, limit'⟩).warnings)
      ∧ (store.emit ⟨namer, limit'⟩).deprecated =
          (store.emit ⟨namer, limit⟩).deprecated
      ∧ (store.locations.card < limit →
          store.emit ⟨namer, limit'⟩ =
            store.emit ⟨namer, limit⟩) := by
  refine ⟨?entries, ?warnings, rfl, ?card⟩
  case entries =>
    intro c entry hEntry
    exact exists_entry_of_limit_le hLimit hEntry
  case warnings =>
    intro w hWarning hLasts
    exact warning_of_limit_le hLimit hWarning hLasts
  case card =>
    intro hCard
    exact emit_eq_of_card_lt hCard hLimit

/- Two primitives of one identifier, the first two hops deep. -/
def deepFirst : Store where
  documents :=
    { primitives :=
        { root := .object [
            ("x", .object [("$value", .text "\x7by\x7d")]),
            ("y", .object [("$value", .text "\x7bz\x7d")]),
            ("z", .object [("$value", .text "#000")]),
            ("X", .object [("$value", .text "#fff")])]
          uniqueKeys := by
            simp [Json.UniqueKeys, Json.UniqueKeysMembers] }
      semantic := .empty
      component := .empty }
  isObject c := by cases c <;> rfl

/- With a second hop the first one takes the identifier back. -/
theorem deepFirst_overtakes :
    let entry : Entry := ⟨"--token-primitive-x", "#fff", ["X"], none⟩
    entry ∈ (deepFirst.emit ⟨⟨"token"⟩, 1⟩).entries.primitives
      ∧ entry ∉ (deepFirst.emit ⟨⟨"token"⟩, 2⟩).entries.primitives
      ∧ ∃ entry' ∈
          (deepFirst.emit ⟨⟨"token"⟩, 2⟩).entries.primitives,
        entry'.identifier = entry.identifier
          ∧ (entry' = entry
            ∨ deepFirst.CutShortBefore ⟨⟨"token"⟩, 1⟩ .primitives
                entry'.path entry) := by
  intro entry
  have hEntry :
      entry ∈ (deepFirst.emit ⟨⟨"token"⟩, 1⟩).entries.primitives := by
    decide
  have hRaised :=
    deepFirst.raised_limit_adds_variables ⟨"token"⟩
      (show 1 ≤ 2 by decide)
  exact ⟨hEntry, by decide, hRaised.1 .primitives entry hEntry⟩

end Store

end DesignTokens
