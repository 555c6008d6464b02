import DesignTokens.Proofs.Reference.Outcome
import Mathlib.Data.Nat.Find

/-
  This file proves that the limit of hops is a threshold.

  Key definitions include:
    * `Exceeds`
    * `Store.ReferenceAfter`

  Key theorems include:
    * `Store.Outcome.mono`
    * `Store.Outcome.not_exceeds`
    * `Store.resolve_threshold`

  A larger limit changes nothing but results that exceed the
  smaller one.  No result exceeds a limit above the number of
  addressable locations, since a trail is never that long.
-/

------------------------------------------------------------
-- Results that Exceed the Limit
------------------------------------------------------------

namespace DesignTokens

/- The chain of a value is longer than the limit. -/
def Exceeds (result : Except ResolveError Literal) : Prop :=
  ∃ r limit, result = .error (.depthExceeded r limit)

namespace Store

/- The reference at which a chain stands after a number of hops. -/
def ReferenceAfter
    (store : Store)
    (start : Position)
    (n : Nat)
    (r : Reference) : Prop :=
  ∃ hops stop,
    store.Chain start hops stop
      ∧ hops.length = n
      ∧ stop.reference? = some r

variable {store : Store}
variable {limit : Nat}
variable {start : Position}
variable {result : Except ResolveError Literal}

/- A defect is not a matter of the limit. -/
theorem Defect.not_exceeds
    {r : Reference}
    {scope : Scope}
    {e : ResolveError}
    (hDefect : store.Defect r scope e) :
    ¬ Exceeds (.error e) := by
  intro hExceeds
  rcases hExceeds with ⟨r', limit, hEq⟩
  cases hDefect <;> cases hEq

/-
  A result exceeds the limit at the reference where a trail of
  as many hops stands.
-/
theorem Outcome.trail_of_exceeds
    (hOutcome : store.Outcome limit start result)
    (hExceeds : Exceeds result) :
    ∃ hops stop r,
      store.Trail start hops stop
        ∧ hops.length = limit
        ∧ stop.reference? = some r
        ∧ result = .error (.depthExceeded r limit) := by
  cases hOutcome with
  | depthExceeded hTrail hLength hReference =>
      exact ⟨_, _, _, hTrail, hLength, hReference, rfl⟩
  | defect _ _ _ hDefect =>
      exact absurd hExceeds hDefect.not_exceeds
  | literal | nullValue | cycle =>
      rcases hExceeds with ⟨r, limit', hEq⟩
      cases hEq

/- No chain exceeds a limit above the number of locations. -/
theorem Outcome.not_exceeds
    (hOutcome : store.Outcome limit start result)
    (hLimit : store.locations.card < limit) :
    ¬ Exceeds result := by
  intro hExceeds
  rcases hOutcome.trail_of_exceeds hExceeds with
    ⟨hops, stop, r, hTrail, hLength, -, -⟩
  have hCard := hTrail.length_le_card
  omega

/- A result within a limit is the result within larger ones. -/
theorem Outcome.mono
    {limit' : Nat}
    (hOutcome : store.Outcome limit start result)
    (hWithin : ¬ Exceeds result)
    (hLimit : limit ≤ limit') :
    store.Outcome limit' start result := by
  cases hOutcome with
  | literal hTrail hLength hReference hLiteral =>
      exact
        Outcome.literal hTrail (hLength.trans hLimit) hReference
          hLiteral
  | nullValue hTrail hLength hNull =>
      exact Outcome.nullValue hTrail (hLength.trans hLimit) hNull
  | depthExceeded _ _ _ => exact absurd ⟨_, _, rfl⟩ hWithin
  | defect hTrail hLength hReference hDefect =>
      exact
        Outcome.defect hTrail (hLength.trans_le hLimit) hReference
          hDefect
  | cycle hTrail hLength hReference hLands hMem =>
      exact
        Outcome.cycle hTrail (hLength.trans_le hLimit) hReference
          hLands hMem

end Store

end DesignTokens

------------------------------------------------------------
-- The Threshold
------------------------------------------------------------

namespace DesignTokens

namespace Store

/- Raising the limit keeps every result that is within it. -/
theorem resolve_eq_of_limit_le
    (store : Store)
    (raw : Json)
    (scope : Scope)
    {limit limit' : Nat}
    (hWithin : ¬ Exceeds (store.resolve limit raw scope))
    (hLimit : limit ≤ limit') :
    store.resolve limit' raw scope =
      store.resolve limit raw scope :=
  ((store.outcome_resolve limit raw scope).mono
    hWithin hLimit).resolve_eq

/- A limit is exceeded at the reference after as many hops. -/
theorem referenceAfter_of_exceeds
    (store : Store)
    (raw : Json)
    (scope : Scope)
    {limit : Nat}
    (hExceeds : Exceeds (store.resolve limit raw scope)) :
    ∃ r,
      store.ReferenceAfter ⟨raw, scope⟩ limit r
        ∧ store.resolve limit raw scope =
            .error (.depthExceeded r limit) := by
  rcases
    (store.outcome_resolve limit raw scope).trail_of_exceeds
      hExceeds with
    ⟨hops, stop, r, hTrail, hLength, hReference, hResult⟩
  exact
    ⟨r, ⟨hops, stop, hTrail.chain, hLength, hReference⟩, hResult⟩

/-
  The limit of hops is a pure threshold.  Limits below it are
  exceeded, each at the reference after as many hops; all other
  limits give one result.  The threshold is at most one above
  the number of addressable locations, so that larger limits are
  never exceeded and no chain goes on for ever.
-/
theorem resolve_threshold
    (store : Store)
    (raw : Json)
    (scope : Scope) :
    ∃ (threshold : Nat)
      (references : Nat → Reference)
      (result : Except ResolveError Literal),
      threshold ≤ store.locations.card + 1
        ∧ (∀ limit < threshold,
            store.ReferenceAfter ⟨raw, scope⟩ limit
                (references limit)
              ∧ store.resolve limit raw scope =
                  .error (.depthExceeded (references limit) limit))
        ∧ (∀ limit ≥ threshold,
            store.resolve limit raw scope = result)
        ∧ ¬ Exceeds result
        ∧ (∀ limit > store.locations.card,
            ¬ Exceeds (store.resolve limit raw scope))
        ∧ (∀ limit limit', limit ≤ limit' →
            ¬ Exceeds (store.resolve limit raw scope) →
              store.resolve limit' raw scope =
                store.resolve limit raw scope) := by
  classical
  have hAbove :
      ∀ limit > store.locations.card,
        ¬ Exceeds (store.resolve limit raw scope) := by
    intro limit hLimit
    exact (store.outcome_resolve limit raw scope).not_exceeds hLimit
  have hExists :
      ∃ limit, ¬ Exceeds (store.resolve limit raw scope) :=
    ⟨store.locations.card + 1, hAbove _ (Nat.lt_succ_self _)⟩
  have hBelow :
      ∀ limit, ∃ r, limit < Nat.find hExists →
        store.ReferenceAfter ⟨raw, scope⟩ limit r
          ∧ store.resolve limit raw scope =
              .error (.depthExceeded r limit) := by
    intro limit
    by_cases hLimit : limit < Nat.find hExists
    · have hExceeds := not_not.mp (Nat.find_min hExists hLimit)
      rcases store.referenceAfter_of_exceeds raw scope hExceeds with
        ⟨r, hAfter⟩
      exact ⟨r, fun _ => hAfter⟩
    · exact ⟨⟨""⟩, fun hLt => absurd hLt hLimit⟩
  choose references hReferences using hBelow
  refine
    ⟨Nat.find hExists, references,
      store.resolve (Nat.find hExists) raw scope,
      Nat.find_le (hAbove _ (Nat.lt_succ_self _)), hReferences,
      ?_, Nat.find_spec hExists, hAbove, ?_⟩
  · intro limit hLimit
    exact
      store.resolve_eq_of_limit_le raw scope
        (Nat.find_spec hExists) hLimit
  · intro limit limit' hLimit hWithin
    exact store.resolve_eq_of_limit_le raw scope hWithin hLimit

end Store

end DesignTokens
