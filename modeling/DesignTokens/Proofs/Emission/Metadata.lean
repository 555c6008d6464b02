import DesignTokens.Proofs.Emission.Accounts
import DesignTokens.Proofs.Emission.Lockstep
import DesignTokens.Proofs.Json.Metadata
import DesignTokens.Proofs.Reference.Lookup

/-
  This file proves that metadata steers neither resolution nor
  emission.

  Key definitions include:
    * `Store.EqualUnder`
    * `Likeness.undescribed`

  Key theorems include:
    * `Store.EqualUnder.step_eq`
    * `Store.EqualUnder.resolve_eq`
    * `Store.EqualUnder.drafts_alike`
    * `Store.metadata_inert`

  Two stores are compared through a rule that makes their trees
  equal.  Nodes are entered as their restatements are, so every
  step is the same in both stores, whatever the rule does to the
  types.  A rule that keeps the types keeps the drafts as well,
  up to their descriptions.
-/

------------------------------------------------------------
-- Resolution
------------------------------------------------------------

namespace DesignTokens

namespace Store

/- A rule makes the trees of two stores equal. -/
def EqualUnder
    (rule : MetadataRule)
    (store store' : Store) : Prop :=
  ∀ c, (store.tree c).restate rule = (store'.tree c).restate rule

variable {α : Type}
variable {rule : MetadataRule}
variable {reading : TokenType → α}
variable {store store' : Store}

/- A node is entered as its restatement is. -/
theorem enter_restate
    (hKeeps : rule.Keeps reading)
    (r : Reference)
    (hint : Option Collection)
    (node : Json) :
    enter r hint (node.restate rule) = enter r hint node := by
  simp only [enter, Record.isRecord_restate_iff hKeeps,
    Json.isObject_restate_iff]
  split
  · have hRecord := Agree.of_map_eq (Record.ofJson_restate hKeeps node)
    generalize Record.ofJson (node.restate rule) = result,
      Record.ofJson node = result' at hRecord ⊢
    cases hRecord with
    | error e => rfl
    | ok hGist =>
        rcases Prod.mk.inj hGist with ⟨hValue, hRest⟩
        rcases Prod.mk.inj hRest with ⟨-, hHint⟩
        simp only [hValue, hHint]
  · split
    · rfl
    · next hOther => rw [Json.restate_of_not_isObject hOther]

namespace EqualUnder

/- At every location stand nodes that the rule makes equal. -/
theorem node?_eq
    (hEqual : store.EqualUnder rule store')
    (l : Location) :
    (store'.node? l).map (Json.restate rule) =
      (store.node? l).map (Json.restate rule) := by
  rw [node?, node?, ← Json.descend?_restate, ← Json.descend?_restate,
    hEqual l.collection]

/- So every step is the same. -/
theorem step_eq
    (hKeeps : rule.Keeps reading)
    (hEqual : store.EqualUnder rule store')
    (r : Reference)
    (scope : Scope) :
    store'.step r scope = store.step r scope := by
  apply step_eq_of_lands
  · intro l _ hNone
    have hNode := hEqual.node?_eq l
    rw [hNone, Option.map_none, Option.map_eq_none_iff] at hNode
    exact hNode
  · intro l node hLands
    have hNode := hEqual.node?_eq l
    rw [hLands.node?_eq, Option.map_some, Option.map_eq_some_iff]
      at hNode
    rcases hNode with ⟨node', hNode', hSame⟩
    refine ⟨node', hNode', ?_⟩
    rw [← enter_restate hKeeps, hSame, enter_restate hKeeps]

/- And so is every result. -/
theorem resolve_eq
    (hKeeps : rule.Keeps reading)
    (hEqual : store.EqualUnder rule store')
    (limit : Nat)
    (raw : Json)
    (scope : Scope) :
    store'.resolve limit raw scope = store.resolve limit raw scope :=
  resolve_congr fun r scope' _ => step_eq hKeeps hEqual r scope'

end EqualUnder

end Store

end DesignTokens

------------------------------------------------------------
-- Emission
------------------------------------------------------------

namespace DesignTokens

/- The variable without its description. -/
def Entry.undescribed (entry : Entry) : Entry :=
  { entry with description := none }

namespace Likeness

/- Tokens that are equal but for their descriptions. -/
def undescribed : Likeness where
  names _ := Eq
  descriptions _ _ := True

theorem undescribed_exact : undescribed.Exact := by
  rintro c d i i' j j' rfl rfl
  rfl

variable {c : Collection}

theorem Entries.undescribed_eq
    {entry entry' : Entry}
    (hEntries : undescribed.Entries c entry entry') :
    entry.undescribed = entry'.undescribed := by
  rcases entry with ⟨identifier, value, path, description⟩
  rcases hEntries with ⟨hIdentifier, hValue, hPath, -⟩
  cases hIdentifier
  cases hValue
  cases hPath
  rfl

/- Warnings have no description. -/
theorem Warnings.eq
    {w w' : Warning}
    (hWarnings : undescribed.Warnings w w') :
    w = w' := by
  rcases w with ⟨c, path, cause⟩
  rcases w' with ⟨c', path', cause'⟩
  rcases hWarnings with ⟨hLayer, hPath, hCause⟩
  cases hLayer
  cases hPath
  cases hCause with
  | malformed e => rfl
  | unresolved e hNames =>
      cases hNames
      rfl
  | unformattable e hNames =>
      cases hNames
      rfl
  | duplicate firstPath hNames =>
      cases hNames
      rfl

end Likeness

namespace Store

variable {rule : MetadataRule}
variable {store store' : Store}

namespace EqualUnder

/- The walks of a layer find leaves that the rule makes equal. -/
theorem leaves_eq
    (hKeeps : rule.Keeps id)
    (hEqual : store.EqualUnder rule store')
    (c : Collection) :
    (store.leaves c).map (Leaf.restate rule) =
      (store'.leaves c).map (Leaf.restate rule) := by
  rw [leaves, leaves, ← Json.leaves_restate hKeeps,
    ← Json.leaves_restate hKeeps, hEqual c]

/- They are drafted alike, up to their descriptions. -/
theorem draft_alike
    (hKeeps : rule.Keeps id)
    (hEqual : store.EqualUnder rule store')
    (options : EmitOptions)
    (c : Collection)
    {leaf leaf' : Leaf}
    (hLeaf : leaf.restate rule = leaf'.restate rule) :
    Likeness.undescribed.Drafts
      (store.draft options c leaf) (store'.draft options c leaf') := by
  rcases leaf with ⟨path, node⟩
  rcases leaf' with ⟨path', node'⟩
  rcases Leaf.mk.inj hLeaf with ⟨hPath, hNode⟩
  cases hPath
  refine ⟨rfl, rfl, ?_⟩
  have hRecord :
      (Record.ofJson node).map (Record.gist id) =
        (Record.ofJson node').map (Record.gist id) := by
    rw [← Record.ofJson_restate hKeeps, hNode,
      Record.ofJson_restate hKeeps]
  have hAgree := Agree.of_map_eq hRecord
  unfold draft draftRecord
  simp only [Leaf.record_eq]
  generalize Record.ofJson node = result,
    Record.ofJson node' = result' at hAgree ⊢
  cases hAgree with
  | error e => exact .error (.malformed e)
  | @ok record record' hGist =>
      rcases Prod.mk.inj hGist with ⟨hValue, hRest⟩
      rcases Prod.mk.inj hRest with ⟨hType, hHint⟩
      have hResult :
          store'.resolveRecord options.limit record' c =
            store.resolveRecord options.limit record c := by
        rw [resolveRecord, resolveRecord, hValue, hHint]
        exact resolve_eq hKeeps hEqual _ _ _
      dsimp only at hType ⊢
      rw [hResult]
      cases store.resolveRecord options.limit record c with
      | error e => exact .error (.unresolved e rfl)
      | ok literal =>
          dsimp only
          rw [show record.type = record'.type from hType]
          cases literal.valueText record'.type with
          | error e => exact .error (.unformattable e rfl)
          | ok value => exact .ok ⟨rfl, rfl, rfl, trivial⟩

theorem drafts_alike
    (hKeeps : rule.Keeps id)
    (hEqual : store.EqualUnder rule store')
    (options : EmitOptions) :
    List.Forall₂ Likeness.undescribed.Drafts
      (store.drafts options) (store'.drafts options) := by
  apply List.rel_flatMap (List.forall₂_same.mpr fun c _ => rfl)
  rintro c _ rfl
  have hLeaves := hEqual.leaves_eq hKeeps c
  rw [← List.forall₂_eq_eq_eq, List.forall₂_map_left_iff,
    List.forall₂_map_right_iff] at hLeaves
  rw [List.forall₂_map_left_iff, List.forall₂_map_right_iff]
  apply hLeaves.imp
  intro leaf leaf' hLeaf
  exact draft_alike hKeeps hEqual options c hLeaf

end EqualUnder

/-
  Metadata steers neither resolution nor emission.  Two stores
  that differ only by reserved members other than values, types
  and hints give every value the same result in every scope, and
  their emissions have the same variables, up to descriptions,
  and the same warnings.  What types are called does not matter
  to resolution either.
-/
theorem metadata_inert
    (store store' : Store) :
    (store.EqualUnder .essential store' →
      (∀ limit raw scope,
        store'.resolve limit raw scope =
          store.resolve limit raw scope)
        ∧ ∀ options,
          (∀ c,
            ((store'.emit options).entries.get c).map
                Entry.undescribed =
              ((store.emit options).entries.get c).map
                Entry.undescribed)
            ∧ (store'.emit options).warnings =
                (store.emit options).warnings)
      ∧ (store.EqualUnder .untyped store' →
          ∀ limit raw scope,
            store'.resolve limit raw scope =
              store.resolve limit raw scope) := by
  constructor
  · intro hEqual
    have hKeeps := MetadataRule.essential_keeps
    refine ⟨EqualUnder.resolve_eq hKeeps hEqual, fun options => ?_⟩
    have hEmissions :=
      Likeness.emissions_ofDrafts Likeness.undescribed_exact
        (hEqual.drafts_alike hKeeps options)
        (store.audit options.namer) (store'.audit options.namer)
    constructor
    · intro c
      rw [eq_comm, ← List.forall₂_eq_eq_eq,
        List.forall₂_map_left_iff, List.forall₂_map_right_iff]
      exact
        (hEmissions.entries c).imp fun _ _ hEntry =>
          hEntry.undescribed_eq
    · rw [eq_comm, ← List.forall₂_eq_eq_eq]
      exact hEmissions.warnings.imp fun _ _ hWarning => hWarning.eq
  · intro hEqual
    exact EqualUnder.resolve_eq MetadataRule.untyped_keeps hEqual

/- A token of some type that stands for another one. -/
def bareWhite (type : String) : Store where
  documents :=
    { primitives := .empty
      semantic :=
        { root := .object [
            ("a", .object [
              ("$value", .text "\x7bb\x7d"),
              ("$type", .text type)]),
            ("b", .object [("$value", .text "#fff")])]
          uniqueKeys := by
            simp [Json.UniqueKeys, Json.UniqueKeysMembers] }
      component := .empty }
  isObject c := by cases c <;> rfl

/- The same tokens, with all sorts of metadata. -/
def notedWhite (type : String) : Store where
  documents :=
    { primitives := .empty
      semantic :=
        { root := .object [
            ("$note", .null),
            ("a", .object [
              ("$description", .text "white"),
              ("$value", .text "\x7bb\x7d"),
              ("$type", .text type)]),
            ("b", .object [
              ("$value", .text "#fff"),
              ("$extensions", .object [
                ("deprecated", .boolean true)])])]
          uniqueKeys := by
            simp [Json.UniqueKeys, Json.UniqueKeysMembers] }
      component := .empty }
  isObject c := by cases c <;> rfl

/- They are emitted alike, and under any type resolve alike. -/
theorem notedWhite_inert :
    let options : EmitOptions := ⟨⟨"token"⟩, 10⟩
    (bareWhite "color").EqualUnder .essential (notedWhite "color")
      ∧ (bareWhite "color").EqualUnder .untyped
          (notedWhite "opacity")
      ∧ (((notedWhite "color").emit options).entries.get
            .semantic).map Entry.undescribed =
          (((bareWhite "color").emit options).entries.get
            .semantic).map Entry.undescribed
      ∧ ∀ limit raw scope,
          (notedWhite "opacity").resolve limit raw scope =
            (bareWhite "color").resolve limit raw scope := by
  intro options
  have hNoted :
      (bareWhite "color").EqualUnder .essential
        (notedWhite "color") := by
    intro c
    cases c <;> rfl
  have hRetyped :
      (bareWhite "color").EqualUnder .untyped
        (notedWhite "opacity") := by
    intro c
    cases c <;> rfl
  have hEntries :=
    (((metadata_inert _ _).1 hNoted).2 options).1 .semantic
  exact
    ⟨hNoted, hRetyped, hEntries, (metadata_inert _ _).2 hRetyped⟩

end Store

end DesignTokens
