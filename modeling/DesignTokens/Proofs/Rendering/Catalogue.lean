import DesignTokens.Proofs.Emission.Accounts
import DesignTokens.Proofs.Json.RoundTrip
import DesignTokens.Rendering.Basic
import Mathlib.Data.List.Flatten

/-
  This file proves that the JSON document of an emission reads
  back as what the emission holds.

  Key theorems include:
    * `Catalogue.plain_toJson`
    * `Catalogue.read?_render`
    * `Store.catalogue_reads_back`

  The document of any emission reads back as it was written.
  That no pair hides another one is due to the identifiers of an
  emission, of which no two are equal.
-/

------------------------------------------------------------
-- The Document of an Emission
------------------------------------------------------------

namespace DesignTokens

namespace Catalogue

theorem plain_optionalText
    (depth : Nat)
    (s : Option String) :
    (optionalText s).Plain depth := by
  cases s with
  | none => exact Json.Plain.null
  | some s => exact Json.Plain.text s

/- A deprecated token without a replacement has null for it. -/
theorem deprecatedToken_eq
    (token : DeprecatedToken) :
    deprecatedToken token =
      .object [
        ("identifier", .text token.identifier),
        ("collection", .text token.collection.name),
        ("path", .text (dotted token.path)),
        ("replacedBy", token.replacedBy.elim .null .text)] := by
  cases hReplaced : token.replacedBy <;>
    simp [deprecatedToken, optionalText, hReplaced]

/- A deprecated token is an object of texts. -/
theorem plain_deprecatedToken
    (token : DeprecatedToken) :
    (deprecatedToken token).Plain 1 := by
  apply Json.Plain.object
  · simp
  · intro m hMem
    simp only [List.mem_cons, List.not_mem_nil, or_false] at hMem
    rcases hMem with rfl | rfl | rfl | rfl
    · exact Json.Plain.text _
    · exact Json.Plain.text _
    · exact Json.Plain.text _
    · exact plain_optionalText 0 _

/- A layer whose identifiers differ is an object of texts. -/
theorem plain_layerObject
    {entries : List Entry}
    (hNodup : (entries.map Entry.identifier).Nodup) :
    (layerObject entries).Plain 1 := by
  apply Json.Plain.object
  · rw [List.map_map]
    exact hNodup
  · intro m hMem
    rcases List.mem_map.mp hMem with ⟨entry, -, rfl⟩
    exact Json.Plain.text _

/- The document of an emission nests three deep at most. -/
theorem plain_toJson
    {emission : Emission}
    (hNodup :
      ∀ c, ((emission.entries.get c).map Entry.identifier).Nodup) :
    (toJson emission).Plain 3 := by
  apply Json.Plain.object
  · simp [Collection.all, Collection.name]
  · intro m hMem
    rcases List.mem_cons.mp hMem with rfl | hMem
    · apply Json.Plain.array
      intro j hItem
      rcases List.mem_map.mp hItem with ⟨token, -, rfl⟩
      exact plain_deprecatedToken token
    · rcases List.mem_map.mp hMem with ⟨c, -, rfl⟩
      exact (plain_layerObject (hNodup c)).mono (by decide)

/- The document of an emission is read back as it was written. -/
theorem read?_render
    {emission : Emission}
    (hNodup :
      ∀ c, ((emission.entries.get c).map Entry.identifier).Nodup) :
    Json.read? (render emission) = some (toJson emission) := by
  have hPlain : (toJson emission).Plain Json.maxNesting :=
    (plain_toJson hNodup).mono (by decide)
  have hFeed : ∀ c ∈ ['\n'], Json.Token.isSpace c = true :=
    List.forall_mem_singleton.mpr rfl
  have hRead := Json.read?_print .indented hPlain hFeed
  rwa [String.ofList_append] at hRead

end Catalogue

end DesignTokens

------------------------------------------------------------
-- Reading It Back
------------------------------------------------------------

namespace DesignTokens

namespace Store

/- No layer of an emission repeats an identifier. -/
theorem emit_get_nodup
    (store : Store)
    (options : EmitOptions)
    (c : Collection) :
    (((store.emit options).entries.get c).map
      Entry.identifier).Nodup := by
  have hSection :
      ((store.emit options).entries.get c).Sublist
        (store.emit options).allEntries := by
    have hLayer : [c].Sublist Collection.all :=
      List.singleton_sublist.mpr (Collection.mem_all c)
    simpa [Emission.allEntries] using
      hLayer.flatMap (store.emit options).entries.get
  exact (store.emit_nodup options).sublist (hSection.map _)

/-
  The JSON document of an emission is read back, with no key
  repeated, as the object of the deprecated tokens and of the
  variables of each layer, in order.
-/
theorem catalogue_reads_back
    (store : Store)
    (options : EmitOptions)
    (descriptions : Bool) :
    let emission := store.emit options
    let layer (c : Collection) : Json :=
      .object ((emission.entries.get c).map fun entry =>
        (entry.identifier, .text entry.value))
    let deprecated : Json :=
      .array ((store.audit options.namer).map fun token =>
        .object [
          ("identifier", .text token.identifier),
          ("collection", .text token.collection.name),
          ("path", .text (dotted token.path)),
          ("replacedBy", token.replacedBy.elim .null .text)])
    ∃ document : Document,
      Document.ofJsonText? (emission.render ⟨.json, descriptions⟩) =
          some document
        ∧ Json.read? (emission.render ⟨.json, descriptions⟩) =
            some document.root
        ∧ document.root =
            .object [
              ("deprecated", deprecated),
              ("primitives", layer .primitives),
              ("semantic", layer .semantic),
              ("component", layer .component)]
        ∧ ∀ c,
            ((emission.entries.get c).map Entry.identifier).Nodup := by
  intro emission layer deprecated
  have hNodup := store.emit_get_nodup options
  have hRead := Catalogue.read?_render hNodup
  have hPlain := Catalogue.plain_toJson hNodup
  refine
    ⟨⟨Catalogue.toJson emission, hPlain.uniqueKeys⟩,
      Document.ofJsonText?_eq_some hRead hPlain.uniqueKeys, hRead, ?_,
      hNodup⟩
  change Catalogue.toJson emission = _
  rw [Catalogue.toJson, Catalogue.deprecatedTokens,
    funext Catalogue.deprecatedToken_eq]
  rfl

end Store

end DesignTokens
