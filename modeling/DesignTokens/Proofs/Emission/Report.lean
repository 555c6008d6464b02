import DesignTokens.Proofs.Emission.Accounts

/-
  This file tells what an emission reports of single leaves and
  of single layers, and on which leaves that depends.

  Key definitions include:
    * `Emission.Reports`
    * `Emission.warningsOf`
    * `Emission.deprecatedIn`
    * `Emission.AgreesOn`

  Key theorems include:
    * `Store.ledger_filter`
    * `Store.reports_iff`
    * `Store.reports_iff_of_nodup`
    * `Store.ledger_layer_congr`
    * `Store.emit_agreesOn`

  Leaves compete for an identifier only with leaves of the same
  identifier.  So what becomes of the leaves whose identifiers
  are of some class does not depend on all the others, and since
  identifiers tell the layers apart, no layer has a say in what
  becomes of another one.
-/

------------------------------------------------------------
-- Claims within a Class of Identifiers
------------------------------------------------------------

namespace DesignTokens

/- The identifier of a leaf of a layer. -/
def Namer.nameOf
    (namer : Namer)
    (x : Collection × Leaf) : String :=
  namer.identifier x.2.path x.1

/- The layer and the leaf that an account is of. -/
def Account.place (a : Account) : Collection × Leaf :=
  (a.collection, a.leaf)

@[simp]
theorem Account.place_mk
    (c : Collection)
    (leaf : Leaf)
    (fate : Except DropCause Entry) :
    place ⟨c, leaf, fate⟩ = (c, leaf) :=
  rfl

/- The first claim always succeeds. -/
theorem claim_nil (result : Except DropCause Entry) :
    claim [] result = result := by
  cases result <;> rfl

/- A claim is decided by entries of the class of its identifier. -/
theorem claim_filter
    {inClass : String → Bool}
    (claimed : List Entry)
    {result : Except DropCause Entry}
    (hClass :
      ∀ entry, result = .ok entry → inClass entry.identifier = true) :
    claim (claimed.filter fun e => inClass e.identifier) result =
      claim claimed result := by
  cases result with
  | error cause => rfl
  | ok entry =>
      have hEntry := hClass entry rfl
      have hTest (e : Entry) :
          (inClass e.identifier = true
              ∧ decide (e.identifier = entry.identifier) = true) ↔
            e.identifier = entry.identifier := by
        rw [decide_eq_true_iff, and_iff_right_iff_imp]
        intro hSame
        rw [hSame]
        exact hEntry
      unfold claim
      simp only [List.find?_filter, hTest]

namespace Store

variable {store store' : Store}
variable {options : EmitOptions}

/- An entry that a claim lets pass is named for its leaf. -/
theorem identifier_of_claim
    {claimed : List Entry}
    {c : Collection}
    {leaf : Leaf}
    {entry : Entry}
    (hClaim :
      claim claimed (store.draft options c leaf).result =
        .ok entry) :
    entry.identifier = options.namer.nameOf (c, leaf) := by
  rw [claim_eq_ok_iff, draft_result_eq_ok_iff] at hClaim
  exact hClaim.1.identifier_eq

/- Accounts of a class of identifiers are made without others. -/
theorem accountAll_filter
    (inClass : String → Bool)
    (claimed : List Entry)
    (leaves : List (Collection × Leaf)) :
    (store.accountAll options claimed leaves).filter
        (fun a => inClass (options.namer.nameOf a.place)) =
      store.accountAll options
        (claimed.filter fun e => inClass e.identifier)
        (leaves.filter fun x => inClass (options.namer.nameOf x)) := by
  induction leaves generalizing claimed with
  | nil => rfl
  | cons x rest ih =>
      obtain ⟨c, leaf⟩ := x
      simp only [accountAll, List.filter_cons, Account.place_mk, ih,
        List.filter_append]
      generalize hFate :
        claim claimed (store.draft options c leaf).result = fate
      have hName (entry : Entry) (hEntry : fate = .ok entry) :
          entry.identifier = options.namer.nameOf (c, leaf) := by
        rw [hEntry] at hFate
        exact identifier_of_claim hFate
      cases hClass : inClass (options.namer.nameOf (c, leaf)) with
      | true =>
          have hDraft (entry : Entry)
              (hEntry :
                (store.draft options c leaf).result = .ok entry) :
              inClass entry.identifier = true := by
            rw [draft_result_eq_ok_iff] at hEntry
            rw [hEntry.identifier_eq]
            exact hClass
          have hKept :
              fate.toOption.toList.filter
                  (fun e => inClass e.identifier) =
                fate.toOption.toList := by
            cases fate with
            | error cause => rfl
            | ok entry =>
                simp [Except.toOption, hName entry rfl, hClass]
          simp only [if_true, accountAll, claim_filter claimed hDraft,
            hFate, hKept]
      | false =>
          have hLost :
              fate.toOption.toList.filter
                  (fun e => inClass e.identifier) = [] := by
            cases fate with
            | error cause => rfl
            | ok entry =>
                simp [Except.toOption, hName entry rfl, hClass]
          simp only [Bool.false_eq_true, if_false, hLost,
            List.append_nil]

/- The accounts of a class are those of its leaves alone. -/
theorem ledger_filter
    (store : Store)
    (options : EmitOptions)
    (inClass : String → Bool) :
    (store.ledger options).filter
        (fun a => inClass (options.namer.nameOf a.place)) =
      store.accountAll options []
        (store.placedLeaves.filter
          fun x => inClass (options.namer.nameOf x)) :=
  accountAll_filter inClass [] store.placedLeaves

/- The draft of a leaf depends on what its record resolves to. -/
theorem draft_congr
    {c : Collection}
    {leaf : Leaf}
    (hSame :
      ∀ record,
        leaf.record = .ok record →
          store'.resolveRecord options.limit record c =
            store.resolveRecord options.limit record c) :
    store'.draft options c leaf = store.draft options c leaf := by
  unfold draft
  cases hRecord : leaf.record with
  | error e => rfl
  | ok record => simp only [draftRecord, hSame record hRecord]

/- Equal drafts of the same leaves make equal accounts. -/
theorem accountAll_congr
    (claimed : List Entry)
    {leaves : List (Collection × Leaf)}
    (hDrafts :
      ∀ x ∈ leaves,
        store'.draft options x.1 x.2 =
          store.draft options x.1 x.2) :
    store'.accountAll options claimed leaves =
      store.accountAll options claimed leaves := by
  induction leaves generalizing claimed with
  | nil => rfl
  | cons x rest ih =>
      obtain ⟨c, leaf⟩ := x
      have hHead := hDrafts (c, leaf) (by simp)
      simp only at hHead
      simp only [accountAll, hHead]
      rw [ih]
      intro y hMem
      exact hDrafts y (List.mem_cons_of_mem _ hMem)

end Store

end DesignTokens

------------------------------------------------------------
-- Reports of Single Leaves
------------------------------------------------------------

namespace DesignTokens

/-
  What an emission reports of the token at a path of a layer:
  its entry, or the cause in its warning.
-/
def Emission.Reports
    (emission : Emission)
    (c : Collection)
    (path : List String) :
    Except DropCause Entry → Prop
| .ok entry =>
    entry ∈ emission.entries.get c ∧ entry.path = path
| .error cause => ⟨c, path, cause⟩ ∈ emission.warnings

namespace Store

variable {store store' : Store}
variable {options : EmitOptions}
variable {c : Collection}
variable {path : List String}
variable {fate : Except DropCause Entry}

/- An entry has the path of its leaf. -/
theorem Yields.path_eq
    {leaf : Leaf}
    {entry : Entry}
    (hYields : store.Yields options c leaf entry) :
    entry.path = leaf.path := by
  cases hYields
  rfl

/- What is reported of a path is the fate of a leaf there. -/
theorem reports_iff :
    (store.emit options).Reports c path fate ↔
      ∃ a ∈ store.ledger options,
        a.collection = c ∧ a.leaf.path = path ∧ a.fate = fate := by
  cases fate with
  | ok entry =>
      rw [Emission.Reports, emit_get, List.mem_filterMap]
      simp only [Account.entryIn?_eq_some_iff]
      constructor
      · rintro ⟨⟨a, hMem, hLayer, hFate⟩, hPath⟩
        rw [(ledger_yields hMem hFate).path_eq] at hPath
        exact ⟨a, hMem, hLayer, hPath, hFate⟩
      · rintro ⟨a, hMem, hLayer, hPath, hFate⟩
        refine ⟨⟨a, hMem, hLayer, hFate⟩, ?_⟩
        rw [(ledger_yields hMem hFate).path_eq, hPath]
  | error cause =>
      rw [Emission.Reports, emit_warnings, List.mem_filterMap]
      constructor
      · intro hWarning
        rcases hWarning with ⟨a, hMem, hWarning⟩
        unfold Account.warning? at hWarning
        split at hWarning
        · simp at hWarning
        · next hFate =>
            cases hWarning
            exact ⟨a, hMem, rfl, rfl, hFate⟩
      · intro hAccount
        rcases hAccount with ⟨a, hMem, rfl, rfl, hFate⟩
        exact ⟨a, hMem, by simp only [Account.warning?, hFate]⟩

/- The leaves of all layers are those of each layer. -/
theorem mem_placedLeaves_iff
    {leaf : Leaf} :
    (c, leaf) ∈ store.placedLeaves ↔ leaf ∈ store.leaves c := by
  simp [placedLeaves, Collection.mem_all]

/- An account of the ledger is that of a leaf of its layer. -/
theorem leaf_mem_of_mem_ledger
    {a : Account}
    (hMem : a ∈ store.ledger options) :
    a.leaf ∈ store.leaves a.collection := by
  rw [← mem_placedLeaves_iff, ← store.ledger_leaves options]
  exact List.mem_map_of_mem hMem

/- A path is reported when a leaf stands there. -/
theorem exists_reports_iff :
    (∃ fate, (store.emit options).Reports c path fate) ↔
      ∃ leaf ∈ store.leaves c, leaf.path = path := by
  simp only [reports_iff, ← mem_placedLeaves_iff,
    ← store.ledger_leaves options, List.mem_map]
  constructor
  · intro hReport
    rcases hReport with ⟨_, a, hMem, rfl, rfl, -⟩
    exact ⟨a.leaf, ⟨a, hMem, rfl⟩, rfl⟩
  · intro hLeaf
    rcases hLeaf with ⟨leaf, ⟨a, hMem, hPlace⟩, rfl⟩
    cases hPlace
    exact ⟨a.fate, a, hMem, rfl, rfl, rfl⟩

/- Reports depend on the accounts of the path's identifier. -/
theorem reports_iff_filter :
    (store.emit options).Reports c path fate ↔
      ∃ a ∈ (store.ledger options).filter
          (fun a =>
            options.namer.nameOf a.place
              == options.namer.identifier path c),
        a.collection = c ∧ a.leaf.path = path ∧ a.fate = fate := by
  rw [reports_iff]
  constructor
  · intro hAccount
    rcases hAccount with ⟨a, hMem, rfl, rfl, rfl⟩
    refine ⟨a, List.mem_filter.mpr ⟨hMem, ?_⟩, rfl, rfl, rfl⟩
    simp [Namer.nameOf, Account.place]
  · intro hAccount
    rcases hAccount with ⟨a, hMem, hRest⟩
    exact ⟨a, (List.mem_filter.mp hMem).1, hRest⟩

/- A leaf that fails is reported with the cause. -/
theorem Fails.reports
    {leaf : Leaf}
    {cause : DropCause}
    (hFails : store.Fails options c leaf cause)
    (hLeaf : leaf ∈ store.leaves c) :
    (store.emit options).Reports c leaf.path (.error cause) := by
  rw [← mem_placedLeaves_iff, ← store.ledger_leaves options,
    List.mem_map] at hLeaf
  rcases hLeaf with ⟨a, hMem, hPlace⟩
  cases hPlace
  rcases List.append_of_mem hMem with ⟨before, after, hSplit⟩
  have hFate := (ledger_fate_error_iff hSplit cause).mpr (.failed hFails)
  exact reports_iff.mpr ⟨a, hMem, rfl, rfl, hFate⟩

/-
  A leaf that shares its identifier with no other one is
  reported as it was drafted.
-/
theorem reports_iff_of_nodup
    {leaf : Leaf}
    (hNodup : (store.placedLeaves.map options.namer.nameOf).Nodup)
    (hLeaf : leaf ∈ store.leaves c) :
    (store.emit options).Reports c leaf.path fate ↔
      fate = (store.draft options c leaf).result := by
  rcases List.append_of_mem (mem_placedLeaves_iff.mpr hLeaf) with
    ⟨before, after, hPlaced⟩
  rw [hPlaced, List.map_append, List.map_cons, List.nodup_middle,
    List.nodup_cons, List.mem_append, not_or] at hNodup
  have hAlone (leaves : List (Collection × Leaf))
      (hNot :
        options.namer.nameOf (c, leaf)
          ∉ leaves.map options.namer.nameOf) :
      leaves.filter
          (fun x =>
            options.namer.nameOf x
              == options.namer.identifier leaf.path c) = [] := by
    rw [List.filter_eq_nil_iff]
    intro x hMem hSame
    rw [beq_iff_eq] at hSame
    exact hNot (List.mem_map.mpr ⟨x, hMem, hSame⟩)
  have hClass :
      store.placedLeaves.filter
          (fun x =>
            options.namer.nameOf x
              == options.namer.identifier leaf.path c) =
        [(c, leaf)] := by
    rw [hPlaced, List.filter_append, List.filter_cons,
      hAlone before hNodup.1.1, hAlone after hNodup.1.2]
    simp [Namer.nameOf]
  have hLedger := store.ledger_filter options
    (· == options.namer.identifier leaf.path c)
  rw [hClass] at hLedger
  rw [reports_iff_filter, hLedger]
  simp [accountAll, claim_nil, eq_comm]

end Store

end DesignTokens

------------------------------------------------------------
-- Reports of Single Layers
------------------------------------------------------------

namespace DesignTokens

namespace Emission

/- The warnings of a layer. -/
def warningsOf
    (emission : Emission)
    (c : Collection) : List Warning :=
  emission.warnings.filter (·.collection = c)

/- The deprecated tokens of a layer. -/
def deprecatedIn
    (emission : Emission)
    (c : Collection) : List DeprecatedToken :=
  emission.deprecated.filter (·.collection = c)

/-
  Two emissions agree on a layer: they hold the same section,
  the same warnings and the same deprecated tokens of it.
-/
structure AgreesOn
    (emission emission' : Emission)
    (c : Collection) : Prop where
  entries : emission.entries.get c = emission'.entries.get c
  warnings : emission.warningsOf c = emission'.warningsOf c
  deprecated : emission.deprecatedIn c = emission'.deprecatedIn c

end Emission

namespace Store

variable {store store' : Store}
variable {options : EmitOptions}
variable {c : Collection}

/- The leaves of a layer among all leaves. -/
theorem placedLeaves_filter
    (store : Store)
    (c : Collection) :
    store.placedLeaves.filter (fun x => x.1 = c) =
      (store.leaves c).map fun leaf => (c, leaf) := by
  cases c <;>
    simp [placedLeaves, Collection.all, List.filter_map,
      Function.comp_def]

/- The accounts of a layer are those of its leaves alone. -/
theorem ledger_layer
    (store : Store)
    (options : EmitOptions)
    (c : Collection) :
    (store.ledger options).filter (fun a => a.collection = c) =
      store.accountAll options []
        ((store.leaves c).map fun leaf => (c, leaf)) := by
  classical
  -- the class of the identifiers of the layer
  let inClass (identifier : String) : Bool :=
    decide (∃ path, identifier = options.namer.identifier path c)
  have hClass (x : Collection × Leaf) :
      inClass (options.namer.nameOf x) = decide (x.1 = c) := by
    apply decide_eq_decide.mpr
    constructor
    · intro hNamed
      rcases hNamed with ⟨path, hSame⟩
      exact Namer.collection_eq_of_identifier_eq hSame
    · rintro rfl
      exact ⟨x.2.path, rfl⟩
  have hLedger := store.ledger_filter options inClass
  simp only [hClass] at hLedger
  rw [placedLeaves_filter] at hLedger
  exact hLedger

/- Leaves of one identifier stand in one layer. -/
theorem placedLeaves_filter_nameOf
    (store : Store)
    (namer : Namer)
    (path : List String)
    (c : Collection) :
    store.placedLeaves.filter
        (fun x => namer.nameOf x == namer.identifier path c) =
      ((store.leaves c).filter fun leaf =>
        namer.identifier leaf.path c == namer.identifier path c).map
          fun leaf => (c, leaf) := by
  have hLayer (x : Collection × Leaf) :
      (namer.nameOf x == namer.identifier path c) =
        (namer.nameOf x == namer.identifier path c
          && decide (x.1 = c)) := by
    rw [Bool.eq_iff_iff, Bool.and_eq_true, beq_iff_eq,
      decide_eq_true_iff, iff_self_and]
    exact Namer.collection_eq_of_identifier_eq
  rw [List.filter_congr fun x _ => hLayer x, ← List.filter_filter,
    placedLeaves_filter, List.filter_map]
  rfl

/- What is reported of a path depends on leaves of its identifier. -/
theorem reports_congr
    {path : List String}
    {fate : Except DropCause Entry}
    (hTree : store'.tree c = store.tree c)
    (hDrafts :
      ∀ leaf ∈ store.leaves c,
        options.namer.identifier leaf.path c =
            options.namer.identifier path c →
          store'.draft options c leaf = store.draft options c leaf) :
    (store'.emit options).Reports c path fate ↔
      (store.emit options).Reports c path fate := by
  have hLeaves : store'.leaves c = store.leaves c := by
    unfold leaves
    rw [hTree]
  have hLedger :
      (store'.ledger options).filter
          (fun a =>
            options.namer.nameOf a.place
              == options.namer.identifier path c) =
        (store.ledger options).filter
          (fun a =>
            options.namer.nameOf a.place
              == options.namer.identifier path c) := by
    rw [store'.ledger_filter options
        (· == options.namer.identifier path c),
      store.ledger_filter options
        (· == options.namer.identifier path c),
      placedLeaves_filter_nameOf, placedLeaves_filter_nameOf, hLeaves]
    apply accountAll_congr
    intro x hMem
    rcases List.mem_map.mp hMem with ⟨leaf, hLeaf, rfl⟩
    rw [List.mem_filter, beq_iff_eq] at hLeaf
    exact hDrafts leaf hLeaf.1 hLeaf.2
  rw [reports_iff_filter, reports_iff_filter, hLedger]

/- Equal leaves with equal drafts have equal accounts. -/
theorem ledger_layer_congr
    (hTree : store'.tree c = store.tree c)
    (hDrafts :
      ∀ leaf ∈ store.leaves c,
        store'.draft options c leaf = store.draft options c leaf) :
    (store'.ledger options).filter (fun a => a.collection = c) =
      (store.ledger options).filter (fun a => a.collection = c) := by
  have hLeaves : store'.leaves c = store.leaves c := by
    unfold leaves
    rw [hTree]
  rw [ledger_layer, ledger_layer, hLeaves]
  apply accountAll_congr
  intro x hMem
  rcases List.mem_map.mp hMem with ⟨leaf, hLeaf, rfl⟩
  exact hDrafts leaf hLeaf

/- The section of a layer is read off its accounts. -/
theorem emit_get_eq
    (store : Store)
    (options : EmitOptions)
    (c : Collection) :
    (store.emit options).entries.get c =
      Account.kept
        ((store.ledger options).filter
          fun a => a.collection = c) := by
  rw [emit_get, Account.kept, List.filterMap_filter]
  simp only [decide_eq_true_eq]
  rfl

/- So are its warnings. -/
theorem warningsOf_emit
    (store : Store)
    (options : EmitOptions)
    (c : Collection) :
    (store.emit options).warningsOf c =
      ((store.ledger options).filter
        fun a => a.collection = c).filterMap Account.warning? := by
  rw [Emission.warningsOf, emit_warnings, List.filter_filterMap,
    List.filterMap_filter]
  apply List.filterMap_congr
  intro a _
  cases hFate : a.fate with
  | ok entry => simp [Account.warning?, hFate]
  | error cause =>
      simp [Account.warning?, hFate, Option.filter]

/- The deprecated tokens of a layer are read off its leaves. -/
theorem deprecatedIn_emit
    (store : Store)
    (options : EmitOptions)
    (c : Collection) :
    (store.emit options).deprecatedIn c =
      if c ∈ Collection.audited then
        (store.leaves c).filterMap
          (DeprecatedToken.ofLeaf? options.namer c)
      else
        [] := by
  have hItems (d : Collection) :
      ((store.leaves d).filterMap
          (DeprecatedToken.ofLeaf? options.namer d)).filter
          (fun item => item.collection = c) =
        if d = c then
          (store.leaves d).filterMap
            (DeprecatedToken.ofLeaf? options.namer d)
        else
          [] := by
    rw [List.filter_filterMap]
    split
    · next hLayer =>
        apply List.filterMap_congr
        intro leaf _
        cases hCase : Record.deprecationOf? leaf.node <;>
          simp [DeprecatedToken.ofLeaf?, hCase, hLayer,
            Option.filter]
    · next hLayer =>
        rw [List.filterMap_eq_nil_iff]
        intro leaf _
        cases hCase : Record.deprecationOf? leaf.node <;>
          simp [DeprecatedToken.ofLeaf?, hCase, hLayer,
            Option.filter]
  change (store.audit options.namer).filter _ = _
  rw [audit, Collection.audited, List.filter_flatMap]
  simp only [hItems]
  cases c <;> simp

/- Equal trees with equal drafts are emitted alike. -/
theorem emit_agreesOn
    (hTree : store'.tree c = store.tree c)
    (hDrafts :
      ∀ leaf ∈ store.leaves c,
        store'.draft options c leaf = store.draft options c leaf) :
    (store'.emit options).AgreesOn (store.emit options) c := by
  have hLedger := ledger_layer_congr hTree hDrafts
  have hLeaves : store'.leaves c = store.leaves c := by
    unfold leaves
    rw [hTree]
  constructor
  · rw [emit_get_eq, emit_get_eq, hLedger]
  · rw [warningsOf_emit, warningsOf_emit, hLedger]
  · rw [deprecatedIn_emit, deprecatedIn_emit, hLeaves]

end Store

end DesignTokens
