import DesignTokens.Proofs.Emission.Audit
import Mathlib.Data.List.Forall2

/-
  This file compares the audit of an emission with what becomes
  of the same leaves in it.

  Key definitions include:
    * `Leaf.Declares`
    * `Account.IsDeprecated`
    * `Account.Lists`

  Key theorems include:
    * `Store.audit_eq_filterMap`
    * `Store.lists_of_deprecated?`
    * `Store.audit_agrees`

  Both go through the same leaves in the same order.  The audit
  is therefore read off the ledger, and an item and the entry or
  warning of its leaf name the leaf alike.
-/

------------------------------------------------------------
-- Deprecated Accounts
------------------------------------------------------------

namespace DesignTokens

/- The extensions of a leaf declare a deprecation. -/
def Leaf.Declares
    (leaf : Leaf)
    (replacedBy : Option String) : Prop :=
  ∃ extensions,
    leaf.node.get? Record.extensionsKey = some extensions ∧
      Deprecation.Declares extensions replacedBy

/- They declare what is read from them. -/
theorem Leaf.declares_iff
    {leaf : Leaf}
    {replacedBy : Option String} :
    leaf.Declares replacedBy ↔
      Record.deprecationOf? leaf.node = some ⟨replacedBy⟩ := by
  simp only [Declares, Record.deprecationOf?, Option.bind_eq_some_iff,
    Deprecation.ofExtensions?_eq_some_iff]

/- Some deprecation is declared when one is read. -/
theorem Leaf.exists_declares_iff
    {leaf : Leaf} :
    (∃ replacedBy, leaf.Declares replacedBy) ↔
      (Record.deprecationOf? leaf.node).isSome = true := by
  simp only [declares_iff, Option.isSome_iff_exists]
  constructor
  · rintro ⟨replacedBy, hRead⟩
    exact ⟨⟨replacedBy⟩, hRead⟩
  · rintro ⟨⟨replacedBy⟩, hRead⟩
    exact ⟨replacedBy, hRead⟩

/- A readable record has the deprecation of its node. -/
theorem Record.deprecation_of_ofJson
    {node : Json}
    {record : Record}
    (hRecord : ofJson node = .ok record) :
    record.deprecation = deprecationOf? node := by
  cases node with
  | object ms =>
      rw [ofJson] at hRecord
      split at hRecord
      · cases hRecord
      · split at hRecord
        · cases hRecord
        · split at hRecord
          · cases hRecord
          · cases hRecord
            rfl
  | _ => simp [ofJson] at hRecord

namespace Account

/- An account of a leaf that is audited and deprecated. -/
def IsDeprecated (a : Account) : Prop :=
  a.collection ∈ Collection.audited ∧
    ∃ replacedBy, a.leaf.Declares replacedBy

instance (a : Account) : Decidable a.IsDeprecated :=
  decidable_of_iff
    (a.collection ∈ Collection.audited ∧
      (Record.deprecationOf? a.leaf.node).isSome = true)
    (and_congr_right fun _ => Leaf.exists_declares_iff.symm)

/-
  An item of the audit is of the leaf of an account.  It names
  the leaf as its entry does, or its warning, where a malformed
  record has no identifier; and it has the replacement that the
  record has, if there is a record.
-/
structure Lists
    (a : Account)
    (token : DeprecatedToken) : Prop where
  declares : a.leaf.Declares token.replacedBy
  leaf : token.collection = a.collection ∧ token.path = a.leaf.path
  entry :
    ∀ c entry,
      entryIn? c a = some entry →
        token.collection = c
          ∧ token.path = entry.path
          ∧ token.identifier = entry.identifier
  warning :
    ∀ w,
      a.warning? = some w →
        token.collection = w.collection
          ∧ token.path = w.path
          ∧ ((∃ e, w.cause = .malformed e)
            ∨ w.cause.identifier? = some token.identifier)
  record :
    ∀ record,
      a.leaf.record = .ok record →
        record.deprecation = some ⟨token.replacedBy⟩

/- The item that the audit makes of the leaf of an account. -/
def deprecated?
    (namer : Namer)
    (a : Account) : Option DeprecatedToken :=
  if a.collection ∈ Collection.audited then
    DeprecatedToken.ofLeaf? namer a.collection a.leaf
  else
    none

/- An item is made where the leaf is audited and deprecated. -/
theorem isSome_deprecated?_iff
    {namer : Namer}
    {a : Account} :
    (a.deprecated? namer).isSome = true ↔ a.IsDeprecated := by
  rw [deprecated?, IsDeprecated, Leaf.exists_declares_iff]
  split
  · next hAudited =>
      simp [hAudited, DeprecatedToken.ofLeaf?]
  · next hNot => simp [hNot]

/- What is made of accounts stands in line with those it is made of. -/
theorem forall₂_filterMap
    {p : Account → Bool}
    {f : Account → Option DeprecatedToken}
    {accounts : List Account}
    (hMade : ∀ a ∈ accounts, p a = (f a).isSome)
    (hLists : ∀ a ∈ accounts, ∀ token, f a = some token → a.Lists token) :
    List.Forall₂ Lists (accounts.filter p) (accounts.filterMap f) := by
  induction accounts with
  | nil => exact List.Forall₂.nil
  | cons a rest ih =>
      rw [List.forall_mem_cons] at hMade hLists
      have hRest := ih hMade.2 hLists.2
      cases hToken : f a with
      | none =>
          have hNot : ¬ p a = true := by simp [hMade.1, hToken]
          rw [List.filter_cons_of_neg hNot,
            List.filterMap_cons_none hToken]
          exact hRest
      | some token =>
          have hKept : p a = true := by simp [hMade.1, hToken]
          rw [List.filter_cons_of_pos hKept,
            List.filterMap_cons_some hToken]
          exact List.Forall₂.cons (hLists.1 token hToken) hRest

end Account

end DesignTokens

------------------------------------------------------------
-- The Audit Read off the Ledger
------------------------------------------------------------

namespace DesignTokens

namespace Store

variable {store : Store}
variable {options : EmitOptions}
variable {a : Account}

/- Why a leaf is left out names its identifier, if it has a record. -/
theorem Drops.identifier?
    {before : List Account}
    {c : Collection}
    {leaf : Leaf}
    {cause : DropCause}
    (hDrops : store.Drops options before c leaf cause) :
    (∃ e, cause = .malformed e)
      ∨ cause.identifier? =
          some (options.namer.identifier leaf.path c) := by
  cases hDrops with
  | failed hFails =>
      cases hFails with
      | malformed _ => exact Or.inl ⟨_, rfl⟩
      | unresolved _ _ => exact Or.inr rfl
      | unformattable _ _ _ => exact Or.inr rfl
  | duplicate hYields _ _ _ _ =>
      exact Or.inr (congrArg some hYields.identifier_eq)

/- The item of a leaf names it as its entry or warning does. -/
theorem lists_of_deprecated?
    (hMem : a ∈ store.ledger options)
    {token : DeprecatedToken}
    (hToken : a.deprecated? options.namer = some token) :
    a.Lists token := by
  rw [Account.deprecated?] at hToken
  split at hToken
  · rcases DeprecatedToken.ofLeaf?_eq_some_iff.mp hToken with
      ⟨extensions, hGet, hDeclares, hIdentifier, hCollection, hPath⟩
    have hLeaf : a.leaf.Declares token.replacedBy :=
      ⟨extensions, hGet, hDeclares⟩
    refine ⟨hLeaf, ⟨hCollection, hPath⟩, ?entry, ?warning, ?record⟩
    case entry =>
      intro c entry hEntry
      rcases Account.entryIn?_eq_some_iff.mp hEntry with ⟨rfl, hFate⟩
      have hYields := ledger_yields hMem hFate
      exact
        ⟨hCollection, hPath.trans hYields.path_eq.symm,
          hIdentifier.trans hYields.identifier_eq.symm⟩
    case warning =>
      intro w hWarning
      rcases List.append_of_mem hMem with ⟨before, after, hSplit⟩
      cases hFate : a.fate with
      | ok entry => simp [Account.warning?, hFate] at hWarning
      | error cause =>
          simp only [Account.warning?, hFate, Option.some.injEq]
            at hWarning
          subst hWarning
          have hDrops := (ledger_fate_error_iff hSplit cause).mp hFate
          rw [hIdentifier]
          exact ⟨hCollection, hPath, hDrops.identifier?⟩
    case record =>
      intro record hRecord
      rw [Leaf.record_eq] at hRecord
      rw [Record.deprecation_of_ofJson hRecord]
      exact Leaf.declares_iff.mp hLeaf
  · cases hToken

/- The audit makes its items account by account. -/
theorem audit_eq_filterMap
    (store : Store)
    (options : EmitOptions) :
    store.audit options.namer =
      (store.ledger options).filterMap
        (Account.deprecated? options.namer) := by
  have hPlaced :
      (store.ledger options).filterMap
          (Account.deprecated? options.namer) =
        store.placedLeaves.filterMap fun x =>
          if x.1 ∈ Collection.audited then
            DeprecatedToken.ofLeaf? options.namer x.1 x.2
          else
            none := by
    rw [← store.ledger_leaves options, List.filterMap_map]
    rfl
  rw [hPlaced]
  simp [audit, placedLeaves, Collection.all, Collection.audited,
    List.filterMap_append, List.filterMap_map]

/- The items stand in line with the deprecated accounts. -/
theorem forall₂_lists_audit
    (store : Store)
    (options : EmitOptions) :
    List.Forall₂ Account.Lists
      ((store.ledger options).filter fun a => a.IsDeprecated)
      (store.audit options.namer) := by
  rw [audit_eq_filterMap]
  apply Account.forall₂_filterMap
  · intro a _
    rw [Bool.eq_iff_iff, decide_eq_true_iff,
      Account.isSome_deprecated?_iff]
  · intro a hMem token hToken
    exact lists_of_deprecated? hMem hToken

/- A leaf is listed with the deprecation of its record. -/
theorem exists_lists_iff
    (hMem : a ∈ store.ledger options)
    (hAudited : a.collection ∈ Collection.audited)
    {record : Record}
    (hRecord : a.leaf.record = .ok record)
    (replacedBy : Option String) :
    (∃ token ∈ store.audit options.namer,
        a.Lists token ∧ token.replacedBy = replacedBy) ↔
      record.deprecation = some ⟨replacedBy⟩ := by
  constructor
  · rintro ⟨token, -, hLists, rfl⟩
    exact hLists.record record hRecord
  · intro hDeprecation
    have hRead := hRecord
    rw [Leaf.record_eq] at hRead
    rw [Record.deprecation_of_ofJson hRead] at hDeprecation
    have hToken :
        a.deprecated? options.namer =
          some
            { identifier :=
                options.namer.identifier a.leaf.path a.collection
              collection := a.collection
              path := a.leaf.path
              replacedBy := replacedBy } := by
      rw [Account.deprecated?, if_pos hAudited, DeprecatedToken.ofLeaf?,
        hDeprecation, Option.map_some]
    refine ⟨_, ?_, lists_of_deprecated? hMem hToken, rfl⟩
    rw [audit_eq_filterMap]
    exact List.mem_filterMap.mpr ⟨a, hMem, hToken⟩

end Store

end DesignTokens
