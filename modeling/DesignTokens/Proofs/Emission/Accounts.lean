import DesignTokens.Proofs.Emission.Ledger

/-
  This file accounts for every leaf of an emission.

  Key theorems include:
    * `Store.emit_get`
    * `Store.emit_warnings`
    * `Emission.value?_eq_some_iff`
    * `Store.emit_accounts`

  The sections and the warnings of an emission are read off the
  ledger, so each leaf adds to exactly one of them.
-/

------------------------------------------------------------
-- Emissions Read off the Ledger
------------------------------------------------------------

namespace DesignTokens

namespace Account

/- Each account is of an entry or of a warning. -/
theorem length_kept_add_warnings (accounts : List Account) :
    (kept accounts).length
        + (accounts.filterMap warning?).length =
      accounts.length := by
  induction accounts with
  | nil => rfl
  | cons a rest ih =>
      cases hFate : a.fate with
      | ok entry =>
          simp only [kept, warning?, hFate, Except.toOption,
            List.filterMap_cons, List.length_cons] at ih ⊢
          omega
      | error cause =>
          simp only [kept, warning?, hFate, Except.toOption,
            List.filterMap_cons, List.length_cons] at ih ⊢
          omega

/- The sections of all layers hold the entries of all accounts. -/
theorem sections_perm_kept (accounts : List Account) :
    (Collection.all.flatMap fun c =>
        accounts.filterMap (entryIn? c)).Perm
      (kept accounts) := by
  induction accounts with
  | nil => exact List.Perm.refl _
  | cons a rest ih =>
      cases hFate : a.fate with
      | error cause =>
          simpa [kept, entryIn?, hFate, Except.toOption] using ih
      | ok entry =>
          have hKept : kept (a :: rest) = entry :: kept rest := by
            simp [kept, hFate, Except.toOption]
          rw [hKept]
          refine List.Perm.trans ?_ (ih.cons entry)
          cases hLayer : a.collection with
          | primitives =>
              simp [Collection.all, entryIn?, hFate, hLayer,
                Except.toOption]
          | semantic =>
              simp [Collection.all, entryIn?, hFate, hLayer,
                Except.toOption]
          | component =>
              -- the entry passes the sections of two other layers
              have hMiddle (p s c : List Entry) :
                  (p ++ (s ++ entry :: c)).Perm
                    (entry :: (p ++ (s ++ c))) :=
                (List.perm_middle.append_left p).trans
                  List.perm_middle
              simpa [Collection.all, entryIn?, hFate, hLayer,
                Except.toOption] using hMiddle _ _ _

end Account

namespace Store

variable (store : Store)
variable (options : EmitOptions)

/- Drafts are made of the placed leaves. -/
theorem drafts_eq :
    store.drafts options =
      store.placedLeaves.map fun x =>
        store.draft options x.1 x.2 := by
  simp [drafts, placedLeaves, List.map_flatMap, Function.comp_def]

/- There is one account for each leaf of the store. -/
theorem ledger_leaves :
    (store.ledger options).map (fun a => (a.collection, a.leaf)) =
      store.placedLeaves :=
  accountAll_leaves [] store.placedLeaves

/- The section of a layer is read off the ledger. -/
theorem emit_get (c : Collection) :
    (store.emit options).entries.get c =
      (store.ledger options).filterMap (Account.entryIn? c) := by
  unfold emit Emission.ofDrafts
  rw [Layers.get_ofFn, drafts_eq, claimAll_drafts,
    List.filterMap_map]
  rfl

/- So are the warnings. -/
theorem emit_warnings :
    (store.emit options).warnings =
      (store.ledger options).filterMap Account.warning? := by
  unfold emit Emission.ofDrafts
  rw [drafts_eq, claimAll_drafts, List.filterMap_map]
  rfl

/- All sections together hold the entries of the ledger. -/
theorem allEntries_emit_perm :
    (store.emit options).allEntries.Perm
      (Account.kept (store.ledger options)) := by
  unfold Emission.allEntries
  rw [funext (store.emit_get options)]
  exact Account.sections_perm_kept _

/- No identifier occurs twice in an emission. -/
theorem emit_nodup :
    ((store.emit options).allEntries.map
      Entry.identifier).Nodup := by
  have hPerm := (store.allEntries_emit_perm options).map
    Entry.identifier
  exact hPerm.nodup_iff.mpr (store.ledger_nodup options)

/- Every leaf is an entry or a warning. -/
theorem tokenCount_add_warnings :
    (store.emit options).tokenCount
        + (store.emit options).warnings.length =
      store.placedLeaves.length := by
  have hCount :=
    Account.length_kept_add_warnings (store.ledger options)
  have hPerm := (store.allEntries_emit_perm options).length_eq
  rw [← store.ledger_leaves options, List.length_map, ← hCount,
    ← hPerm, emit_warnings]
  rfl

end Store

/- Where identifiers differ, a value belongs to one entry. -/
theorem Emission.value?_eq_some_iff
    {emission : Emission}
    (hNodup : (emission.allEntries.map Entry.identifier).Nodup)
    (identifier value : String) :
    emission.value? identifier = some value ↔
      ∃ entry ∈ emission.allEntries,
        entry.identifier = identifier ∧ entry.value = value := by
  unfold value?
  rw [Option.map_eq_some_iff]
  constructor
  · intro hFound
    rcases hFound with ⟨entry, hFind, hValue⟩
    rw [find?_identifier_eq_some_iff hNodup] at hFind
    exact ⟨entry, hFind.1, hFind.2, hValue⟩
  · intro hEntry
    rcases hEntry with ⟨entry, hMem, hSame, hValue⟩
    refine ⟨entry, ?_, hValue⟩
    exact (find?_identifier_eq_some_iff hNodup).mpr ⟨hMem, hSame⟩

end DesignTokens

------------------------------------------------------------
-- Accounting for Leaves
------------------------------------------------------------

namespace DesignTokens

/-
  Every leaf has one account, in the order of the output, and
  the account is of an entry or of a warning.  It is of an entry
  exactly when the leaf is the first to yield its identifier.
  Otherwise it names the first step of the leaf that fails, or
  an entry of the same layer that has the identifier.
-/
theorem Store.emit_accounts
    (store : Store)
    (options : EmitOptions) :
    ∃ accounts : List Account,
      accounts.map (fun a => (a.collection, a.leaf)) =
          store.placedLeaves
        ∧ (∀ c,
            (store.emit options).entries.get c =
              accounts.filterMap (Account.entryIn? c))
        ∧ (store.emit options).warnings =
            accounts.filterMap Account.warning?
        ∧ (store.emit options).tokenCount
              + (store.emit options).warnings.length =
            store.placedLeaves.length
        ∧ (∀ before a after,
            accounts = before ++ a :: after →
              (∀ entry,
                a.fate = .ok entry ↔
                  store.Yields options a.collection a.leaf entry
                    ∧ ∀ b ∈ before, ∀ other,
                        store.Yields options b.collection b.leaf
                            other →
                          other.identifier ≠ entry.identifier)
              ∧ ∀ cause,
                  a.fate = .error cause ↔
                    store.Drops options before a.collection a.leaf
                      cause)
        ∧ ((store.emit options).allEntries.map
            Entry.identifier).Nodup
        ∧ ∀ identifier value,
            (store.emit options).value? identifier = some value ↔
              ∃ entry ∈ (store.emit options).allEntries,
                entry.identifier = identifier
                  ∧ entry.value = value := by
  refine ⟨store.ledger options, store.ledger_leaves options,
    store.emit_get options, store.emit_warnings options,
    store.tokenCount_add_warnings options, ?fates,
    store.emit_nodup options, ?values⟩
  case fates =>
    intro before a after hSplit
    exact ⟨ledger_fate_ok_iff hSplit, ledger_fate_error_iff hSplit⟩
  case values =>
    exact Emission.value?_eq_some_iff (store.emit_nodup options)

end DesignTokens
