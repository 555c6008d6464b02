import DesignTokens.Emission.Basic
import DesignTokens.Proofs.Naming
import Mathlib.Data.List.Nodup
import Mathlib.Data.List.Perm.Basic

/-
  This file tells what becomes of each leaf of a store.

  Key definitions include:
    * `Store.Yields`
    * `Store.Fails`
    * `Account`
    * `Store.ledger`
    * `Store.Drops`

  Key theorems include:
    * `Store.claimAll_drafts`
    * `Store.ledger_fate_ok_iff`
    * `Store.ledger_fate_error_iff`

  The ledger has one account for each leaf, in the order of the
  output.  Claiming identifiers is done account by account, so
  that what becomes of a leaf is told by the accounts before.
-/

------------------------------------------------------------
-- Steps of a Leaf
------------------------------------------------------------

namespace DesignTokens

namespace Store

/- A leaf's record reads, resolves and formats to an entry. -/
inductive Yields
    (store : Store)
    (options : EmitOptions)
    (c : Collection)
    (leaf : Leaf) : Entry → Prop
| intro {record : Record} {literal : Literal} {value : String} :
    leaf.record = .ok record →
      store.resolveRecord options.limit record c = .ok literal →
        literal.valueText record.type = .ok value →
          store.Yields options c leaf
            { identifier := options.namer.identifier leaf.path c
              value := value
              path := leaf.path
              description := record.description }

/- The first of the three steps that fails for a leaf, and why. -/
inductive Fails
    (store : Store)
    (options : EmitOptions)
    (c : Collection)
    (leaf : Leaf) : DropCause → Prop
| malformed {e : RecordError} :
    leaf.record = .error e →
      store.Fails options c leaf (.malformed e)
| unresolved {record : Record} {e : ResolveError} :
    leaf.record = .ok record →
      store.resolveRecord options.limit record c = .error e →
        store.Fails options c leaf
          (.unresolved (options.namer.identifier leaf.path c) e)
| unformattable
    {record : Record} {literal : Literal} {e : FormatError} :
    leaf.record = .ok record →
      store.resolveRecord options.limit record c = .ok literal →
        literal.valueText record.type = .error e →
          store.Fails options c leaf
            (.unformattable (options.namer.identifier leaf.path c) e)

variable {store : Store}
variable {options : EmitOptions}
variable {c : Collection} {leaf : Leaf}

/- The draft of a leaf that yields an entry has the entry. -/
theorem Yields.draft_result
    {entry : Entry}
    (hYields : store.Yields options c leaf entry) :
    (store.draft options c leaf).result = .ok entry := by
  cases hYields with
  | intro hRecord hLiteral hValue =>
      simp only [draft, draftRecord, hRecord, hLiteral, hValue]

/- The draft of a leaf that fails has the cause. -/
theorem Fails.draft_result
    {cause : DropCause}
    (hFails : store.Fails options c leaf cause) :
    (store.draft options c leaf).result = .error cause := by
  cases hFails with
  | malformed hRecord => simp only [draft, hRecord]
  | unresolved hRecord hLiteral =>
      simp only [draft, draftRecord, hRecord, hLiteral]
  | unformattable hRecord hLiteral hValue =>
      simp only [draft, draftRecord, hRecord, hLiteral, hValue]

/- A leaf yields an entry or fails. -/
theorem yields_or_fails
    (store : Store)
    (options : EmitOptions)
    (c : Collection)
    (leaf : Leaf) :
    (∃ entry, store.Yields options c leaf entry) ∨
      ∃ cause, store.Fails options c leaf cause := by
  cases hRecord : leaf.record with
  | error e => exact Or.inr ⟨_, Fails.malformed hRecord⟩
  | ok record =>
      cases hLiteral :
          store.resolveRecord options.limit record c with
      | error e =>
          exact Or.inr ⟨_, Fails.unresolved hRecord hLiteral⟩
      | ok literal =>
          cases hValue : literal.valueText record.type with
          | error e =>
              exact
                Or.inr
                  ⟨_, Fails.unformattable hRecord hLiteral hValue⟩
          | ok value =>
              exact
                Or.inl ⟨_, Yields.intro hRecord hLiteral hValue⟩

/- A draft has an entry when all steps succeed. -/
theorem draft_result_eq_ok_iff
    (entry : Entry) :
    (store.draft options c leaf).result = .ok entry ↔
      store.Yields options c leaf entry := by
  constructor
  · intro hResult
    rcases store.yields_or_fails options c leaf with
      ⟨other, hYields⟩ | ⟨cause, hFails⟩
    · have hOther := hYields.draft_result
      rw [hResult] at hOther
      cases hOther
      exact hYields
    · simp [hFails.draft_result] at hResult
  · exact Yields.draft_result

/- A draft has none when one of the steps fails. -/
theorem draft_result_eq_error_iff
    (cause : DropCause) :
    (store.draft options c leaf).result = .error cause ↔
      store.Fails options c leaf cause := by
  constructor
  · intro hResult
    rcases store.yields_or_fails options c leaf with
      ⟨entry, hYields⟩ | ⟨other, hFails⟩
    · simp [hYields.draft_result] at hResult
    · have hOther := hFails.draft_result
      rw [hResult] at hOther
      cases hOther
      exact hFails
  · exact Fails.draft_result

/- An entry is named for its leaf. -/
theorem Yields.identifier_eq
    {entry : Entry}
    (hYields : store.Yields options c leaf entry) :
    entry.identifier = options.namer.identifier leaf.path c := by
  cases hYields
  rfl

end Store

end DesignTokens

------------------------------------------------------------
-- The Ledger
------------------------------------------------------------

namespace DesignTokens

/- A leaf of a layer, and the entry or the cause it came to. -/
structure Account where
  collection : Collection
  leaf : Leaf
  fate : Except DropCause Entry

namespace Account

/- The draft of a leaf, once identifiers are claimed. -/
def settled (a : Account) : Draft :=
  ⟨a.collection, a.leaf.path, a.fate⟩

/- The entry that a leaf adds to the section of a layer. -/
def entryIn?
    (c : Collection)
    (a : Account) : Option Entry :=
  if a.collection = c then a.fate.toOption else none

theorem entryIn?_eq_some_iff
    {c : Collection}
    {a : Account}
    {entry : Entry} :
    entryIn? c a = some entry ↔
      a.collection = c ∧ a.fate = .ok entry := by
  cases hFate : a.fate <;> simp [entryIn?, hFate, Except.toOption]

/- The warning that a leaf adds. -/
def warning? (a : Account) : Option Warning :=
  match a.fate with
  | .ok _ => none
  | .error cause => some ⟨a.collection, a.leaf.path, cause⟩

/- The entries of accounts of all layers. -/
def kept (accounts : List Account) : List Entry :=
  accounts.filterMap fun a => a.fate.toOption

theorem kept_append (before after : List Account) :
    kept (before ++ after) = kept before ++ kept after :=
  List.filterMap_append

theorem mem_kept_iff
    {accounts : List Account}
    {entry : Entry} :
    entry ∈ kept accounts ↔ ∃ a ∈ accounts, a.fate = .ok entry := by
  unfold kept
  rw [List.mem_filterMap]
  constructor
  · intro hKept
    rcases hKept with ⟨a, hMem, hFate⟩
    refine ⟨a, hMem, ?_⟩
    cases hCase : a.fate <;> simp_all [Except.toOption]
  · intro hAccount
    rcases hAccount with ⟨a, hMem, hFate⟩
    exact ⟨a, hMem, by rw [hFate]; rfl⟩

end Account

/- Let a result claim its identifier after earlier entries. -/
def claim (claimed : List Entry) :
    Except DropCause Entry → Except DropCause Entry
| .error cause => .error cause
| .ok entry =>
    match claimed.find? (·.identifier = entry.identifier) with
    | some first => .error (.duplicate entry.identifier first.path)
    | none => .ok entry

/- A claim succeeds when no earlier entry has the identifier. -/
theorem claim_eq_ok_iff
    (claimed : List Entry)
    (result : Except DropCause Entry)
    (entry : Entry) :
    claim claimed result = .ok entry ↔
      result = .ok entry ∧
        ∀ first ∈ claimed, first.identifier ≠ entry.identifier := by
  cases result with
  | error cause => simp [claim]
  | ok found =>
      cases hFind : claimed.find? (·.identifier = found.identifier) with
      | some first =>
          have hMem := List.mem_of_find?_eq_some hFind
          have hSame := List.find?_some hFind
          simp only [claim, hFind, reduceCtorEq, Except.ok.injEq,
            false_iff, not_and]
          rintro rfl hNone
          exact hNone first hMem (by simpa using hSame)
      | none =>
          simp only [claim, hFind, Except.ok.injEq, iff_self_and]
          rintro rfl first hMem
          simpa using List.find?_eq_none.mp hFind first hMem

/- A claim fails when the result has, or when it comes too late. -/
theorem claim_eq_error_iff
    (claimed : List Entry)
    (result : Except DropCause Entry)
    (cause : DropCause) :
    claim claimed result = .error cause ↔
      result = .error cause ∨
        ∃ entry first,
          result = .ok entry
            ∧ claimed.find? (·.identifier = entry.identifier) =
                some first
            ∧ cause = .duplicate entry.identifier first.path := by
  cases result with
  | error other => simp [claim]
  | ok found =>
      cases hFind : claimed.find? (·.identifier = found.identifier) with
      | some first =>
          simp only [claim, hFind, Except.error.injEq, reduceCtorEq,
            false_or]
          constructor
          · rintro rfl
            exact ⟨found, first, rfl, hFind, rfl⟩
          · intro hLate
            rcases hLate with ⟨entry, other, hEntry, hOther, rfl⟩
            cases hEntry
            rw [hFind] at hOther
            cases hOther
            rfl
      | none =>
          simp only [claim, hFind, reduceCtorEq, false_or, false_iff]
          intro hLate
          rcases hLate with ⟨entry, other, hEntry, hOther, -⟩
          cases hEntry
          rw [hFind] at hOther
          cases hOther

namespace Store

/- The leaves of all layers with their layers, in output order. -/
def placedLeaves (store : Store) : List (Collection × Leaf) :=
  Collection.all.flatMap fun c =>
    (store.leaves c).map fun leaf => (c, leaf)

/- The accounts of leaves that follow entries. -/
def accountAll
    (store : Store)
    (options : EmitOptions) :
    List Entry → List (Collection × Leaf) → List Account
| _, [] => []
| claimed, (c, leaf) :: rest =>
    let fate := claim claimed (store.draft options c leaf).result
    ⟨c, leaf, fate⟩
      :: store.accountAll options
        (claimed ++ fate.toOption.toList) rest

/- The accounts of all leaves. -/
def ledger
    (store : Store)
    (options : EmitOptions) : List Account :=
  store.accountAll options [] store.placedLeaves

variable {store : Store}
variable {options : EmitOptions}

/- Drafts claim their identifiers account by account. -/
theorem claimAll_drafts
    (claimed : List Entry)
    (leaves : List (Collection × Leaf)) :
    claimAll claimed
        (leaves.map fun x => store.draft options x.1 x.2) =
      (store.accountAll options claimed leaves).map
        Account.settled := by
  induction leaves generalizing claimed with
  | nil => rfl
  | cons x rest ih =>
      obtain ⟨c, leaf⟩ := x
      simp only [List.map_cons, claimAll, accountAll]
      cases hResult : (store.draft options c leaf).result with
      | error cause =>
          simp only [claim, Except.toOption, Option.toList_none,
            List.append_nil, ih]
          rw [← hResult]
          rfl
      | ok entry =>
          cases hFind :
              claimed.find? (·.identifier = entry.identifier) with
          | some first =>
              simp only [hFind, claim, Except.toOption,
                Option.toList_none, List.append_nil, ih]
              rfl
          | none =>
              simp only [hFind, claim, Except.toOption,
                Option.toList_some, ih]
              rw [← hResult]
              rfl

/- There is one account for each leaf, in order. -/
theorem accountAll_leaves
    (claimed : List Entry)
    (leaves : List (Collection × Leaf)) :
    (store.accountAll options claimed leaves).map
        (fun a => (a.collection, a.leaf)) = leaves := by
  induction leaves generalizing claimed with
  | nil => rfl
  | cons x rest ih =>
      obtain ⟨c, leaf⟩ := x
      simp only [accountAll, List.map_cons, ih]

/-
  What becomes of a leaf is its own result, claimed after the
  entries of the accounts before.
-/
theorem accountAll_fate
    {claimed : List Entry}
    {leaves : List (Collection × Leaf)}
    {before after : List Account}
    {a : Account}
    (hSplit :
      store.accountAll options claimed leaves =
        before ++ a :: after) :
    a.fate =
      claim (claimed ++ Account.kept before)
        (store.draft options a.collection a.leaf).result := by
  induction before generalizing claimed leaves with
  | nil =>
      cases leaves with
      | nil => simp [accountAll] at hSplit
      | cons x rest =>
          obtain ⟨c, leaf⟩ := x
          simp only [accountAll, List.nil_append, List.cons.injEq]
            at hSplit
          rcases hSplit with ⟨rfl, -⟩
          simp [Account.kept]
  | cons b before ih =>
      cases leaves with
      | nil => simp [accountAll] at hSplit
      | cons x rest =>
          obtain ⟨c, leaf⟩ := x
          simp only [accountAll, List.cons_append, List.cons.injEq]
            at hSplit
          rcases hSplit with ⟨rfl, hRest⟩
          rw [ih hRest]
          congr 1
          simp only [Account.kept, List.append_assoc,
            List.filterMap_cons]
          split <;> simp_all

/- No two entries of the accounts share an identifier. -/
theorem accountAll_nodup
    (store : Store)
    (options : EmitOptions)
    (claimed : List Entry)
    (leaves : List (Collection × Leaf))
    (hClaimed : (claimed.map Entry.identifier).Nodup) :
    ((claimed ++ Account.kept
      (store.accountAll options claimed leaves)).map
        Entry.identifier).Nodup := by
  induction leaves generalizing claimed with
  | nil => simpa [accountAll, Account.kept] using hClaimed
  | cons x rest ih =>
      obtain ⟨c, leaf⟩ := x
      cases hFate :
          claim claimed (store.draft options c leaf).result with
      | error cause =>
          have hRest := ih claimed hClaimed
          simpa [accountAll, Account.kept, hFate, Except.toOption]
            using hRest
      | ok entry =>
          rw [claim_eq_ok_iff] at hFate
          have hNext :
              ((claimed ++ [entry]).map Entry.identifier).Nodup := by
            rw [List.map_append, List.nodup_append']
            refine ⟨hClaimed, by simp, ?_⟩
            simpa using hFate.2
          have hRest := ih (claimed ++ [entry]) hNext
          rw [← claim_eq_ok_iff] at hFate
          simpa [accountAll, Account.kept, hFate, Except.toOption]
            using hRest

end Store

end DesignTokens

------------------------------------------------------------
-- Fates
------------------------------------------------------------

namespace DesignTokens

/- Where identifiers differ, one finds the entry that has it. -/
theorem find?_identifier_eq_some_iff
    {entries : List Entry}
    (hNodup : (entries.map Entry.identifier).Nodup)
    {identifier : String}
    {entry : Entry} :
    entries.find? (·.identifier = identifier) = some entry ↔
      entry ∈ entries ∧ entry.identifier = identifier := by
  constructor
  · intro hFind
    have hSame := List.find?_some hFind
    exact ⟨List.mem_of_find?_eq_some hFind, by simpa using hSame⟩
  · intro hEntry
    rcases hEntry with ⟨hMem, rfl⟩
    cases hFind :
        entries.find? (·.identifier = entry.identifier) with
    | none =>
        have hNone := List.find?_eq_none.mp hFind entry hMem
        simp at hNone
    | some other =>
        have hOther := List.mem_of_find?_eq_some hFind
        have hSame := List.find?_some hFind
        rw [List.inj_on_of_nodup_map hNodup hOther hMem
          (by simpa using hSame)]

namespace Store

/-
  A leaf is left out: one of its steps fails, or an entry of
  its own layer has the identifier already.
-/
inductive Drops
    (store : Store)
    (options : EmitOptions)
    (before : List Account)
    (c : Collection)
    (leaf : Leaf) : DropCause → Prop
| failed {cause : DropCause} :
    store.Fails options c leaf cause →
      store.Drops options before c leaf cause
| duplicate {entry first : Entry} {a : Account} :
    store.Yields options c leaf entry →
      a ∈ before →
        a.collection = c →
          a.fate = .ok first →
            first.identifier = entry.identifier →
              store.Drops options before c leaf
                (.duplicate entry.identifier first.path)

variable {store : Store}
variable {options : EmitOptions}
variable {before after : List Account}
variable {a : Account}

/- No two entries of the ledger share an identifier. -/
theorem ledger_nodup
    (store : Store)
    (options : EmitOptions) :
    ((Account.kept (store.ledger options)).map
      Entry.identifier).Nodup := by
  have hNodup :=
    store.accountAll_nodup options [] store.placedLeaves
      List.nodup_nil
  rwa [List.nil_append] at hNodup

/- A fate is the leaf's result, claimed after earlier entries. -/
theorem ledger_fate
    (hSplit : store.ledger options = before ++ a :: after) :
    a.fate =
      claim (Account.kept before)
        (store.draft options a.collection a.leaf).result := by
  have hFate := accountAll_fate hSplit
  rwa [List.nil_append] at hFate

/- The leaf of an entry yields it. -/
theorem ledger_yields
    (hMem : a ∈ store.ledger options)
    {entry : Entry}
    (hFate : a.fate = .ok entry) :
    store.Yields options a.collection a.leaf entry := by
  rcases List.append_of_mem hMem with ⟨before, after, hSplit⟩
  rw [ledger_fate hSplit, claim_eq_ok_iff] at hFate
  exact (draft_result_eq_ok_iff entry).mp hFate.1

/-
  An identifier is taken as soon as a leaf yields it.  The leaf
  itself has it, or an earlier one has it already.
-/
theorem ledger_taken_iff
    (hSplit : store.ledger options = before ++ after)
    (identifier : String) :
    (∃ first ∈ Account.kept before,
        first.identifier = identifier) ↔
      ∃ b ∈ before, ∃ other,
        store.Yields options b.collection b.leaf other
          ∧ other.identifier = identifier := by
  constructor
  · intro hTaken
    rcases hTaken with ⟨first, hFirst, hSame⟩
    rcases Account.mem_kept_iff.mp hFirst with ⟨b, hMem, hFate⟩
    have hLedger : b ∈ store.ledger options := by
      rw [hSplit]
      exact List.mem_append_left after hMem
    exact ⟨b, hMem, first, ledger_yields hLedger hFate, hSame⟩
  · intro hYielded
    rcases hYielded with ⟨b, hMem, other, hYields, hSame⟩
    rcases List.append_of_mem hMem with ⟨front, back, rfl⟩
    rw [List.append_assoc, List.cons_append] at hSplit
    have hFate := ledger_fate hSplit
    rw [hYields.draft_result] at hFate
    cases hCase : b.fate with
    | ok entry =>
        rw [hCase, eq_comm, claim_eq_ok_iff] at hFate
        cases hFate.1
        exact ⟨other, Account.mem_kept_iff.mpr ⟨b, hMem, hCase⟩, hSame⟩
    | error cause =>
        rw [hCase, eq_comm, claim_eq_error_iff] at hFate
        rcases hFate with hError | ⟨entry, first, hEntry, hFind, -⟩
        · cases hError
        · cases hEntry
          have hFirst := List.mem_of_find?_eq_some hFind
          have hFound := List.find?_some hFind
          refine ⟨first, ?_, by simpa [hSame] using hFound⟩
          rw [Account.kept_append]
          exact List.mem_append_left _ hFirst

/- A leaf has its entry when it is the first to yield the name. -/
theorem ledger_fate_ok_iff
    (hSplit : store.ledger options = before ++ a :: after)
    (entry : Entry) :
    a.fate = .ok entry ↔
      store.Yields options a.collection a.leaf entry
        ∧ ∀ b ∈ before, ∀ other,
            store.Yields options b.collection b.leaf other →
              other.identifier ≠ entry.identifier := by
  have hTaken := ledger_taken_iff hSplit entry.identifier
  rw [ledger_fate hSplit, claim_eq_ok_iff, draft_result_eq_ok_iff]
  refine and_congr_right fun _ => ?_
  constructor
  · intro hFree b hMem other hYields hSame
    rcases hTaken.mpr ⟨b, hMem, other, hYields, hSame⟩
      with ⟨first, hFirst, hFound⟩
    exact hFree first hFirst hFound
  · intro hFirst first hMem hSame
    rcases hTaken.mp ⟨first, hMem, hSame⟩
      with ⟨b, hEarlier, other, hYields, hOther⟩
    exact hFirst b hEarlier other hYields hOther

/- A leaf is left out for the first of its steps that fails. -/
theorem ledger_fate_error_iff
    (hSplit : store.ledger options = before ++ a :: after)
    (cause : DropCause) :
    a.fate = .error cause ↔
      store.Drops options before a.collection a.leaf cause := by
  rw [ledger_fate hSplit, claim_eq_error_iff,
    draft_result_eq_error_iff]
  constructor
  · intro hCause
    rcases hCause with hFails | ⟨entry, first, hEntry, hFind, rfl⟩
    · exact Drops.failed hFails
    · have hYields := (draft_result_eq_ok_iff entry).mp hEntry
      have hSame := List.find?_some hFind
      have hFirst := List.mem_of_find?_eq_some hFind
      rcases Account.mem_kept_iff.mp hFirst with ⟨b, hMem, hFate⟩
      have hLedger : b ∈ store.ledger options := by
        rw [hSplit]
        exact List.mem_append_left _ hMem
      have hEarlier := ledger_yields hLedger hFate
      have hSame' : first.identifier = entry.identifier := by
        simpa using hSame
      refine Drops.duplicate hYields hMem ?_ hFate hSame'
      rw [hEarlier.identifier_eq, hYields.identifier_eq] at hSame'
      exact Namer.collection_eq_of_identifier_eq hSame'
  · intro hDrops
    cases hDrops with
    | failed hFails => exact Or.inl hFails
    | duplicate hYields hMem hLayer hFate hSame =>
        right
        have hNodup := store.ledger_nodup options
        rw [hSplit, Account.kept_append, List.map_append] at hNodup
        refine ⟨_, _, hYields.draft_result, ?_, rfl⟩
        rw [find?_identifier_eq_some_iff hNodup.of_append_left]
        exact ⟨Account.mem_kept_iff.mpr ⟨_, hMem, hFate⟩, hSame⟩

end Store

end DesignTokens
