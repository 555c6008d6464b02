import DesignTokens.Emission.Basic
import Mathlib.Data.List.Forall2

/-
  This file runs two emissions side by side.

  Key definitions include:
    * `Likeness`
    * `Likeness.Exact`
    * `Likeness.Drafts`
    * `Likeness.Emissions`

  Key theorems include:
    * `Likeness.claimAll_alike`
    * `Likeness.emissions_ofDrafts`

  A likeness says which identifiers of the two correspond.  As
  long as it neither merges nor splits identifiers, a draft finds
  its identifier taken in the one run when it does in the other,
  so corresponding drafts come to corresponding ends.
-/

------------------------------------------------------------
-- Likenesses
------------------------------------------------------------

namespace DesignTokens

/- What two tokens of a layer may differ in. -/
structure Likeness where
  names : Collection → String → String → Prop
  descriptions : Option String → Option String → Prop

namespace Likeness

/- Identifiers that are equal correspond to equal ones only. -/
def Exact (like : Likeness) : Prop :=
  ∀ c d i i' j j',
    like.names c i i' → like.names d j j' → (i = j ↔ i' = j')

/- Variables of a layer that correspond. -/
structure Entries
    (like : Likeness)
    (c : Collection)
    (entry entry' : Entry) : Prop where
  identifier : like.names c entry.identifier entry'.identifier
  value : entry.value = entry'.value
  path : entry.path = entry'.path
  description :
    like.descriptions entry.description entry'.description

/- Causes that differ by the identifiers in them only. -/
inductive Causes
    (like : Likeness)
    (c : Collection) : DropCause → DropCause → Prop
| malformed (e : RecordError) :
    like.Causes c (.malformed e) (.malformed e)
| unresolved {i i' : String} (e : ResolveError) :
    like.names c i i' →
      like.Causes c (.unresolved i e) (.unresolved i' e)
| unformattable {i i' : String} (e : FormatError) :
    like.names c i i' →
      like.Causes c (.unformattable i e) (.unformattable i' e)
| duplicate {i i' : String} (firstPath : List String) :
    like.names c i i' →
      like.Causes c (.duplicate i firstPath) (.duplicate i' firstPath)

/- A leaf comes to the same end. -/
inductive Fates
    (like : Likeness)
    (c : Collection) :
    Except DropCause Entry → Except DropCause Entry → Prop
| ok {entry entry' : Entry} :
    like.Entries c entry entry' →
      like.Fates c (.ok entry) (.ok entry')
| error {cause cause' : DropCause} :
    like.Causes c cause cause' →
      like.Fates c (.error cause) (.error cause')

/- Drafts of one place that come to the same end. -/
structure Drafts
    (like : Likeness)
    (d d' : Draft) : Prop where
  collection : d.collection = d'.collection
  path : d.path = d'.path
  result : like.Fates d.collection d.result d'.result

/- Warnings about one place that have the same cause. -/
structure Warnings
    (like : Likeness)
    (w w' : Warning) : Prop where
  collection : w.collection = w'.collection
  path : w.path = w'.path
  cause : like.Causes w.collection w.cause w'.cause

/-
  Emissions whose sections and warnings correspond position by
  position.
-/
structure Emissions
    (like : Likeness)
    (emission emission' : Emission) : Prop where
  entries :
    ∀ c,
      List.Forall₂ (like.Entries c)
        (emission.entries.get c) (emission'.entries.get c)
  warnings :
    List.Forall₂ like.Warnings emission.warnings emission'.warnings

end Likeness

end DesignTokens

------------------------------------------------------------
-- Claims Side by Side
------------------------------------------------------------

namespace DesignTokens

namespace Likeness

variable {like : Likeness}
variable {c : Collection}
variable {claimed claimed' : List Entry}
variable {ds ds' : List Draft}

/- An identifier is taken by entries of one path, or by none. -/
theorem find?_rel
    (hExact : like.Exact)
    {i i' : String}
    (hNames : like.names c i i')
    (hClaimed :
      List.Forall₂ (fun e e' => ∃ d, like.Entries d e e')
        claimed claimed') :
    Option.Rel (fun e e' => e.path = e'.path)
      (claimed.find? (·.identifier = i))
      (claimed'.find? (·.identifier = i')) := by
  induction hClaimed with
  | nil => exact Option.Rel.none
  | @cons entry entry' claimed claimed' hEntry _ ih =>
      rcases hEntry with ⟨d, hEntry⟩
      have hTest :
          entry.identifier = i ↔ entry'.identifier = i' :=
        hExact d c _ _ _ _ hEntry.identifier hNames
      rw [List.find?_cons, List.find?_cons]
      by_cases hSame : entry.identifier = i
      · have hSame' := hTest.mp hSame
        simp only [hSame, hSame', decide_true]
        exact Option.Rel.some hEntry.path
      · have hOther' := mt hTest.mpr hSame
        simp only [hSame, hOther', decide_false]
        exact ih

/- Corresponding drafts claim their identifiers alike. -/
theorem claimAll_alike
    (hExact : like.Exact)
    (hClaimed :
      List.Forall₂ (fun e e' => ∃ d, like.Entries d e e')
        claimed claimed')
    (hDrafts : List.Forall₂ like.Drafts ds ds') :
    List.Forall₂ like.Drafts
      (claimAll claimed ds) (claimAll claimed' ds') := by
  induction hDrafts generalizing claimed claimed' with
  | nil => exact List.Forall₂.nil
  | @cons d d' ds ds' hDraft _ ih =>
      rcases d with ⟨c, path, result⟩
      rcases d' with ⟨c', path', result'⟩
      rcases hDraft with ⟨hLayer, hPath, hResult⟩
      cases hLayer
      cases hPath
      cases hResult with
      | error hCause =>
          rw [claimAll, claimAll]
          exact .cons ⟨rfl, rfl, .error hCause⟩ (ih hClaimed)
      | @ok entry entry' hEntry =>
          have hFound := find?_rel hExact hEntry.identifier hClaimed
          rw [claimAll, claimAll]
          dsimp only
          generalize claimed.find? _ = found,
            claimed'.find? _ = found' at hFound ⊢
          cases hFound with
          | none =>
              refine .cons ⟨rfl, rfl, .ok hEntry⟩ (ih ?_)
              exact
                List.rel_append hClaimed (.cons ⟨c, hEntry⟩ .nil)
          | some hFirst =>
              dsimp only
              rw [hFirst]
              exact
                .cons
                  ⟨rfl, rfl, .error (.duplicate _ hEntry.identifier)⟩
                  (ih hClaimed)

/- So the sections correspond. -/
theorem entriesIn_alike
    (c : Collection)
    (hDrafts : List.Forall₂ like.Drafts ds ds') :
    List.Forall₂ (like.Entries c)
      (ds.filterMap (Draft.entryIn? c))
      (ds'.filterMap (Draft.entryIn? c)) := by
  apply List.rel_filterMap _ hDrafts
  intro d d' hDraft
  rcases d with ⟨layer, path, result⟩
  rcases d' with ⟨layer', path', result'⟩
  rcases hDraft with ⟨hLayer, -, hResult⟩
  cases hLayer
  unfold Draft.entryIn?
  by_cases hSame : layer = c
  · subst hSame
    simp only [if_true]
    cases hResult with
    | ok hEntry => exact Option.Rel.some hEntry
    | error _ => exact Option.Rel.none
  · simp only [hSame, if_false]
    exact Option.Rel.none

/- And so do the warnings. -/
theorem warnings_alike
    (hDrafts : List.Forall₂ like.Drafts ds ds') :
    List.Forall₂ like.Warnings
      (ds.filterMap Draft.warning?) (ds'.filterMap Draft.warning?) := by
  apply List.rel_filterMap _ hDrafts
  intro d d' hDraft
  rcases d with ⟨layer, path, result⟩
  rcases d' with ⟨layer', path', result'⟩
  rcases hDraft with ⟨hLayer, hPath, hResult⟩
  cases hLayer
  cases hPath
  unfold Draft.warning?
  cases hResult with
  | ok _ => exact Option.Rel.none
  | error hCause => exact Option.Rel.some ⟨rfl, rfl, hCause⟩

/- Corresponding drafts make corresponding emissions. -/
theorem emissions_ofDrafts
    (hExact : like.Exact)
    (hDrafts : List.Forall₂ like.Drafts ds ds')
    (deprecated deprecated' : List DeprecatedToken) :
    like.Emissions
      (Emission.ofDrafts (claimAll [] ds) deprecated)
      (Emission.ofDrafts (claimAll [] ds') deprecated') := by
  have hSettled := claimAll_alike hExact .nil hDrafts
  constructor
  · intro c
    rw [Emission.ofDrafts, Emission.ofDrafts, Layers.get_ofFn,
      Layers.get_ofFn]
    exact entriesIn_alike c hSettled
  · exact warnings_alike hSettled

end Likeness

end DesignTokens
