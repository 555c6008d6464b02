import DesignTokens.Proofs.Emission.Accounts
import DesignTokens.Proofs.Emission.Lockstep

/-
  This file proves that the root of all identifiers only renames
  the variables of an emission.

  Key definitions include:
    * `Namer.Exchanges`
    * `Likeness.rerooting`

  Key theorems include:
    * `Likeness.rerooting_exact`
    * `Store.draft_renamed`
    * `Store.root_only_renames`

  Every identifier is the prefix of its layer and a rest that
  does not depend on the root.  Since no prefix of a layer begins
  an identifier of another one, exchanging prefixes keeps equal
  identifiers equal and others apart.
-/

------------------------------------------------------------
-- Exchanging Prefixes
------------------------------------------------------------

namespace DesignTokens

/-
  An identifier is made from another one by exchanging the
  prefix of its layer and keeping the rest.
-/
def Namer.Exchanges
    (namer namer' : Namer)
    (c : Collection)
    (i i' : String) : Prop :=
  ∃ rest,
    i = namer.layerPrefix c ++ rest
      ∧ i' = namer'.layerPrefix c ++ rest

/- The identifiers of one token are made from each other. -/
theorem Namer.exchanges_identifier
    (namer namer' : Namer)
    (path : List String)
    (c : Collection) :
    namer.Exchanges namer' c
      (namer.identifier path c) (namer'.identifier path c) :=
  ⟨normalizePath path, rfl, rfl⟩

namespace Likeness

/- Tokens that are equal but for the root of their identifiers. -/
def rerooting (namer namer' : Namer) : Likeness where
  names := namer.Exchanges namer'
  descriptions := Eq

/- Exchanging prefixes neither merges nor splits identifiers. -/
theorem rerooting_exact (namer namer' : Namer) :
    (rerooting namer namer').Exact := by
  rintro c d i i' j j' ⟨rest, rfl, rfl⟩ ⟨rest', rfl, rfl⟩
  rw [Namer.layerPrefix_append_eq_iff, Namer.layerPrefix_append_eq_iff]

/- Deprecated tokens that are equal but for their identifiers. -/
structure Items
    (like : Likeness)
    (item item' : DeprecatedToken) : Prop where
  identifier :
    like.names item.collection item.identifier item'.identifier
  collection : item.collection = item'.collection
  path : item.path = item'.path
  replacedBy : item.replacedBy = item'.replacedBy

end Likeness

end DesignTokens

------------------------------------------------------------
-- Emissions under Two Roots
------------------------------------------------------------

namespace DesignTokens

namespace Store

variable (store : Store)
variable (limit : Nat)
variable (namer namer' : Namer)

/- A leaf is drafted alike under two roots. -/
theorem draft_renamed
    (c : Collection)
    (leaf : Leaf) :
    (Likeness.rerooting namer namer').Drafts
      (store.draft ⟨namer, limit⟩ c leaf)
      (store.draft ⟨namer', limit⟩ c leaf) := by
  have hNames := namer.exchanges_identifier namer' leaf.path c
  refine ⟨rfl, rfl, ?_⟩
  unfold draft draftRecord
  cases leaf.record with
  | error e => exact .error (.malformed e)
  | ok record =>
      dsimp only
      cases store.resolveRecord limit record c with
      | error e => exact .error (.unresolved e hNames)
      | ok literal =>
          dsimp only
          cases literal.valueText record.type with
          | error e => exact .error (.unformattable e hNames)
          | ok value => exact .ok ⟨hNames, rfl, rfl, rfl⟩

/- So all leaves are. -/
theorem drafts_renamed :
    List.Forall₂ (Likeness.rerooting namer namer').Drafts
      (store.drafts ⟨namer, limit⟩) (store.drafts ⟨namer', limit⟩) := by
  rw [drafts_eq, drafts_eq, List.forall₂_map_left_iff,
    List.forall₂_map_right_iff, List.forall₂_same]
  intro x _
  exact store.draft_renamed limit namer namer' x.1 x.2

/- The audit lists the same leaves. -/
theorem audit_renamed :
    List.Forall₂ (Likeness.rerooting namer namer').Items
      (store.audit namer) (store.audit namer') := by
  apply List.rel_flatMap (List.forall₂_same.mpr fun c _ => rfl)
  rintro c _ rfl
  apply List.rel_filterMap _ (List.forall₂_same.mpr fun leaf _ => rfl)
  rintro leaf _ rfl
  unfold DeprecatedToken.ofLeaf?
  cases Record.deprecationOf? leaf.node with
  | none => exact Option.Rel.none
  | some deprecation =>
      have hNames := namer.exchanges_identifier namer' leaf.path c
      exact Option.Rel.some ⟨hNames, rfl, rfl, rfl⟩

/-
  The root of all identifiers only renames.  Under two roots the
  sections, the warnings and the deprecated tokens correspond
  position by position: all they say is equal, except that in
  each identifier the prefix of the layer is exchanged.  Two
  tokens share an identifier under both roots or under none.
-/
theorem root_only_renames :
    (Likeness.rerooting namer namer').Emissions
        (store.emit ⟨namer, limit⟩) (store.emit ⟨namer', limit⟩)
      ∧ List.Forall₂ (Likeness.rerooting namer namer').Items
          (store.emit ⟨namer, limit⟩).deprecated
          (store.emit ⟨namer', limit⟩).deprecated
      ∧ ∀ p q c d,
          namer.identifier p c = namer.identifier q d ↔
            namer'.identifier p c = namer'.identifier q d := by
  refine ⟨?emissions, store.audit_renamed namer namer', ?collisions⟩
  case emissions =>
    exact
      Likeness.emissions_ofDrafts
        (Likeness.rerooting_exact namer namer')
        (store.drafts_renamed limit namer namer') _ _
  case collisions =>
    intro p q c d
    rw [Namer.identifier_eq_identifier_iff,
      Namer.identifier_eq_identifier_iff]

end Store

end DesignTokens
