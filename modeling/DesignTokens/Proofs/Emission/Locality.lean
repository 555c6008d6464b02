import DesignTokens.Proofs.Emission.Walk
import DesignTokens.Proofs.Reference.Lookup
import DesignTokens.Proofs.Store.Edit

/-
  This file proves that faults stay local: an edit of one token
  changes only the tokens that are resolved through it.

  Key theorems include:
    * `Json.LeafBelow.replaceAt`
    * `Store.Edited.mem_leaves`
    * `Store.Edited.resolve_eq`
    * `Store.faults_stay_local`

  An edit of a token changes neither the namespaces above it nor
  the nodes beside it, so the walk lists all other leaves as
  before.  A resolution that never lands at the token makes the
  same steps as before.
-/

------------------------------------------------------------
-- Leaves beside an Edit
------------------------------------------------------------

namespace DesignTokens

namespace Json

variable {root node child old new target : Json}
variable {key : String}
variable {path other : List String}

/- Members edited so that a leaf stays leave it where it is. -/
theorem LeafBelow.editMember
    {f : Json → Json}
    (hGet : root.get? key = some child)
    (hChild :
      ∀ keys,
        other = key :: keys →
          child.LeafAt keys target → (f child).LeafAt keys target)
    (hLeaf : root.LeafBelow other target) :
    (root.editMember key f).LeafBelow other target := by
  rcases hLeaf with ⟨key', keys', child', rfl, hKey', hGet', hBelow⟩
  by_cases hSame : key' = key
  · subst hSame
    rw [hGet] at hGet'
    cases hGet'
    refine ⟨key', keys', f child, rfl, hKey', ?_, ?_⟩
    · rw [get?_editMember_self, hGet]
      rfl
    · exact hChild keys' rfl hBelow
  · refine ⟨key', keys', child', rfl, hKey', ?_, hBelow⟩
    rw [get?_editMember_of_ne hSame]
    exact hGet'

/- Putting another node in the place of a leaf keeps the others. -/
theorem LeafAt.replaceAt
    (hOld : node.LeafAt path old)
    (hOther : other ≠ path)
    (hLeaf : node.LeafAt other target) :
    (node.replaceAt path new).LeafAt other target := by
  induction hOld generalizing other with
  | here hNot =>
      rw [leafAt_iff_of_not_isNamespace hNot] at hLeaf
      exact absurd hLeaf.1 hOther
  | under hNamespace hKey hGet _ ih =>
      rw [leafAt_iff_of_isNamespace hNamespace] at hLeaf
      rw [Json.replaceAt,
        leafAt_iff_of_isNamespace
          ((isNamespace_editMember_iff hKey _ _).mpr hNamespace)]
      apply hLeaf.editMember hGet
      rintro keys rfl hBelow
      apply ih _ hBelow
      rintro rfl
      exact hOther rfl

/- So does an edit below the root, whatever the root is. -/
theorem LeafBelow.replaceAt
    (hOld : root.LeafBelow path old)
    (hOther : other ≠ path)
    (hLeaf : root.LeafBelow other target) :
    (root.replaceAt path new).LeafBelow other target := by
  rcases hOld with ⟨key, keys, child, rfl, hKey, hGet, hChild⟩
  apply hLeaf.editMember hGet
  rintro keys' rfl hBelow
  apply hChild.replaceAt _ hBelow
  rintro rfl
  exact hOther rfl

end Json

end DesignTokens

------------------------------------------------------------
-- Resolutions beside an Edit
------------------------------------------------------------

namespace DesignTokens

namespace Store

/-
  An edit that puts a new node in the place of a leaf.  Neither
  the old nor the new node holds further tokens.
-/
structure EditsLeaf
    (store store' : Store)
    (l : Location)
    (old new : Json) : Prop where
  leaf : ⟨l.path, old⟩ ∈ store.leaves l.collection
  oldKeys : ∀ key ∈ old.keys, IsReserved key
  newKeys : ∀ key ∈ new.keys, IsReserved key
  edited : store.Edited store' l new

variable {store store' : Store}
variable {l : Location}
variable {old new : Json}

namespace EditsLeaf

theorem reach?_eq
    (hEdits : store.EditsLeaf store' l old new) :
    (store.tree l.collection).reach? l.path = some old := by
  have hLeaf := hEdits.leaf
  rw [mem_leaves_iff] at hLeaf
  exact hLeaf.reach?_eq

/- All other leaves are leaves as before. -/
theorem mem_leaves
    {c : Collection}
    {leaf : Leaf}
    (hEdits : store.EditsLeaf store' l old new)
    (hOther : (⟨c, leaf.path⟩ : Location) ≠ l)
    (hLeaf : leaf ∈ store.leaves c) :
    leaf ∈ store'.leaves c := by
  have hOld := hEdits.leaf
  rw [mem_leaves_iff] at hLeaf hOld ⊢
  by_cases hLayer : c = l.collection
  · subst hLayer
    rw [hEdits.edited.layer]
    apply hOld.replaceAt _ hLeaf
    intro hPath
    exact hOther (by rw [hPath])
  · rw [hEdits.edited.others c hLayer]
    exact hLeaf

/- What is missing before the edit is missing after it. -/
theorem node?_eq_none
    {other : Location}
    (hEdits : store.EditsLeaf store' l old new)
    (hNone : store.node? other = none) :
    store'.node? other = none := by
  by_cases hSame : other = l
  · subst hSame
    -- only an empty key hides a leaf from references
    have hEmpty : "" ∈ other.path := by
      by_contra hKeys
      have hFound :=
        Json.descend?_eq_some_iff.mpr ⟨hKeys, hEdits.reach?_eq⟩
      rw [← node?, hNone] at hFound
      cases hFound
    rw [Option.eq_none_iff_forall_ne_some]
    intro node hNode
    exact (Json.descend?_eq_some_iff.mp hNode).1 hEmpty
  · have hRel :=
      hEdits.edited.node?_rel hEdits.reach?_eq hEdits.oldKeys
        hEdits.newKeys hSame
    rw [hNone] at hRel
    cases hNode : store'.node? other with
    | none => rfl
    | some node =>
        rw [hNode] at hRel
        cases hRel

/- A reference that lands elsewhere is followed as before. -/
theorem step_eq
    {r : Reference}
    {scope : Scope}
    (hEdits : store.EditsLeaf store' l old new)
    (hElsewhere : ∀ node, ¬ store.Lands r scope l node) :
    store'.step r scope = store.step r scope := by
  apply step_eq_of_lands
  · intro other _ hNone
    exact hEdits.node?_eq_none hNone
  · intro other node hLands
    have hOther : other ≠ l := by
      rintro rfl
      exact hElsewhere node hLands
    have hRel :=
      hEdits.edited.node?_rel hEdits.reach?_eq hEdits.oldKeys
        hEdits.newKeys hOther
    rw [hLands.node?_eq] at hRel
    cases hNode : store'.node? other with
    | none =>
        rw [hNode] at hRel
        cases hRel
    | some node' =>
        rw [hNode] at hRel
        cases hRel with
        | some hAlike => exact ⟨node', rfl, enter_alike hAlike r _⟩

/- A resolution that never lands at the edit gives the same. -/
theorem resolve_eq
    {limit : Nat}
    {raw : Json}
    {scope : Scope}
    (hEdits : store.EditsLeaf store' l old new)
    (hElsewhere : ¬ store.Visits limit ⟨raw, scope⟩ l) :
    store'.resolve limit raw scope =
      store.resolve limit raw scope := by
  apply resolve_congr
  intro r lookup hLookup
  apply hEdits.step_eq
  intro node hLands
  exact hElsewhere ⟨r, lookup, node, hLookup, hLands⟩

end EditsLeaf

/-
  Faults stay local.  Every leaf beside an edited one that is not
  resolved through it resolves as before and, where no two leaves
  share an identifier, keeps its entry or its warning.
-/
theorem faults_stay_local
    (hEdits : store.EditsLeaf store' l old new) :
    (∀ limit c leaf record,
        leaf ∈ store.leaves c →
          (⟨c, leaf.path⟩ : Location) ≠ l →
            leaf.record = .ok record →
              ¬ store.Visits limit (record.position c) l →
                leaf ∈ store'.leaves c
                  ∧ store'.resolveRecord limit record c =
                      store.resolveRecord limit record c)
      ∧ ∀ options,
          (store.placedLeaves.map options.namer.nameOf).Nodup →
            (store'.placedLeaves.map options.namer.nameOf).Nodup →
              ∀ c leaf,
                leaf ∈ store.leaves c →
                  (⟨c, leaf.path⟩ : Location) ≠ l →
                    (∀ record,
                      leaf.record = .ok record →
                        ¬ store.Visits options.limit
                          (record.position c) l) →
                      ∃ fate, ∀ other,
                        ((store.emit options).Reports c leaf.path
                            other ↔ other = fate)
                          ∧ ((store'.emit options).Reports c
                              leaf.path other ↔ other = fate) := by
  constructor
  · intro limit c leaf record hLeaf hOther _ hElsewhere
    exact
      ⟨hEdits.mem_leaves hOther hLeaf, hEdits.resolve_eq hElsewhere⟩
  · intro options hNodup hNodup' c leaf hLeaf hOther hElsewhere
    have hLeaf' := hEdits.mem_leaves hOther hLeaf
    have hDraft :
        store'.draft options c leaf = store.draft options c leaf := by
      apply draft_congr
      intro record hRecord
      exact hEdits.resolve_eq (hElsewhere record hRecord)
    refine ⟨(store.draft options c leaf).result, fun other => ?_⟩
    constructor
    · exact reports_iff_of_nodup hNodup hLeaf
    · rw [reports_iff_of_nodup hNodup' hLeaf', hDraft]

/- Two tokens that resolve, and some token beside them. -/
def besideToken
    (token : Json)
    (hUnique : token.UniqueKeys) : Store where
  documents :=
    { primitives := .empty
      semantic :=
        { root := .object [
            ("a", .object [("$value", .text "\x7bb\x7d")]),
            ("b", .object [("$value", .text "#fff")]),
            ("c", token)]
          uniqueKeys := by
            simp [Json.UniqueKeys, Json.UniqueKeysMembers, hUnique] }
      component := .empty }
  isObject c := by cases c <;> rfl

/- Breaking the token beside it leaves a token as it was. -/
theorem besideToken_unaffected :
    let token : Json := .object [("$value", .text "\x7bb\x7d")]
    let store :=
      besideToken token
        (by simp [token, Json.UniqueKeys, Json.UniqueKeysMembers])
    let store' := besideToken .null (by simp [Json.UniqueKeys])
    store.EditsLeaf store' ⟨.semantic, ["c"]⟩ token .null
      ∧ ∃ fate, ∀ other,
          ((store.emit ⟨⟨"token"⟩, 10⟩).Reports .semantic ["a"]
              other ↔ other = fate)
            ∧ ((store'.emit ⟨⟨"token"⟩, 10⟩).Reports .semantic
                ["a"] other ↔ other = fate) := by
  intro token store store'
  have hEdits :
      store.EditsLeaf store' ⟨.semantic, ["c"]⟩ token .null := by
    refine ⟨?_, by decide, by decide, rfl, ?_⟩
    · exact List.mem_of_getElem? (i := 2) rfl
    · intro c hLayer
      cases c with
      | primitives => rfl
      | semantic => exact absurd rfl hLayer
      | component => rfl
  have hStep :
      store.step ⟨"b"⟩ ⟨.semantic, none⟩ =
        .ok ⟨⟨.semantic, ["b"]⟩, .text "#fff", ⟨.semantic, none⟩⟩ :=
    rfl
  refine
    ⟨hEdits,
      (faults_stay_local hEdits).2 ⟨⟨"token"⟩, 10⟩ (by decide)
        (by decide) .semantic
        ⟨["a"], .object [("$value", .text "\x7bb\x7d")]⟩
        (List.mem_of_getElem? (i := 0) rfl) (by decide) ?_⟩
  intro record hRecord hVisits
  cases hRecord
  rcases hVisits.eq_or_later rfl hStep with hLocation | hLater
  · exact absurd hLocation (by decide)
  · exact not_visits_of_reference?_eq_none rfl _ hLater

end Store

end DesignTokens
