import DesignTokens.Proofs.Reference.Outcome
import DesignTokens.Proofs.Store.Reach

/-
  This file tells which references a resolution looks up, and
  proves that it depends on these lookups only.

  Key definitions include:
    * `Store.LooksUp`
    * `Store.Visits`
    * `Store.StaysIn`
    * `Store.Unhinted`
    * `Collection.visible`

  Key theorems include:
    * `Store.step_eq_of_lands`
    * `Store.Visits.eq_or_later`
    * `Store.resolve_congr`
    * `Store.Unhinted.resolve_eq`
    * `Store.unhinted_of_hintFree`

  Two stores give a value the same result when every lookup of
  the one leads to the same step in the other.  As long as no
  hint is in force, lookups stay among the layers that the first
  layer sees, because layers see what the layers they see do.
-/

------------------------------------------------------------
-- Equal Steps
------------------------------------------------------------

namespace DesignTokens

namespace Store

variable {store store' : Store}
variable {r : Reference}
variable {scope : Scope}
variable {l : Location}
variable {node : Json}

/- A reference lands in one of the layers searched. -/
theorem Lands.collection_mem
    (hLands : store.Lands r scope l node) :
    l.collection ∈ scope.searchOrder := by
  rcases hLands with ⟨c, before, after, hOrder, -, hMeans⟩
  rw [hOrder, hMeans.collection_eq]
  simp

/-
  Two stores make the same step when what is missing in the one
  is missing in the other, and the node that the one lands at is
  entered in the same way in the other.
-/
theorem step_eq_of_lands
    (hMissing :
      ∀ l : Location,
        l.collection ∈ scope.searchOrder →
          store.node? l = none → store'.node? l = none)
    (hLanding :
      ∀ l node,
        store.Lands r scope l node →
          ∃ node', store'.node? l = some node'
            ∧ enter r scope.hint node' = enter r scope.hint node) :
    store'.step r scope = store.step r scope := by
  have hMisses (c : Collection) (hLayer : c ∈ scope.searchOrder)
      (hMiss : store.Misses r c) : store'.Misses r c :=
    ⟨hMissing _ hLayer hMiss.1, hMissing _ hLayer hMiss.2⟩
  unfold step
  cases hLocate : store.locate? r scope with
  | none =>
      have hAll := (store.locate?_eq_none_iff r scope).mp hLocate
      have hLocate' : store'.locate? r scope = none :=
        (store'.locate?_eq_none_iff r scope).mpr
          fun c hLayer => hMisses c hLayer (hAll c hLayer)
      rw [hLocate']
  | some found =>
      obtain ⟨l, node⟩ := found
      have hLands := (store.locate?_eq_some_iff ..).mp hLocate
      rcases hLanding l node hLands with ⟨node', hNode, hEnter⟩
      have hLands' : store'.Lands r scope l node' := by
        rcases hLands with ⟨c, before, after, hOrder, hBefore, hMeans⟩
        have hLayer : c ∈ scope.searchOrder := by simp [hOrder]
        refine ⟨c, before, after, hOrder, ?_, ?_⟩
        · intro d hMem
          exact hMisses d (by simp [hOrder, hMem]) (hBefore d hMem)
        · cases hMeans with
          | dotted _ => exact Means.dotted hNode
          | hyphenated hDotted _ =>
              exact
                Means.hyphenated (hMissing _ hLayer hDotted) hNode
      have hLocate' := (store'.locate?_eq_some_iff ..).mpr hLands'
      simp only [hLocate', hEnter]

end Store

end DesignTokens

------------------------------------------------------------
-- Lookups of a Resolution
------------------------------------------------------------

namespace DesignTokens

/- The position of the value of a record in a layer. -/
def Record.position
    (record : Record)
    (layer : Collection) : Position :=
  ⟨record.value, ⟨layer, record.hint⟩⟩

namespace Store

/-
  A resolution looks a reference up in a scope: its trail comes
  to the reference with hops left.
-/
def LooksUp
    (store : Store)
    (limit : Nat)
    (start : Position)
    (r : Reference)
    (scope : Scope) : Prop :=
  ∃ hops stop,
    store.Trail start hops stop
      ∧ hops.length < limit
      ∧ stop.reference? = some r
      ∧ stop.scope = scope

/- A resolution lands at a location, whatever it finds there. -/
def Visits
    (store : Store)
    (limit : Nat)
    (start : Position)
    (l : Location) : Prop :=
  ∃ r scope node,
    store.LooksUp limit start r scope
      ∧ store.Lands r scope l node

/- A resolution lands at locations of one layer only. -/
def StaysIn
    (store : Store)
    (limit : Nat)
    (start : Position)
    (c : Collection) : Prop :=
  ∀ l, store.Visits limit start l → l.collection = c

variable {store store' : Store}
variable {limit : Nat}
variable {start stop : Position}

/- A resolution looks up every reference that its trail follows. -/
theorem Trail.looksUp
    {p q : Position}
    {hop : Hop} {hops : List Hop}
    (hTrail : store.Trail start hops p)
    (hLength : hops.length < limit)
    (hHop : store.Hops p hop q) :
    store.LooksUp limit start hop.reference p.scope :=
  ⟨hops, p, hTrail, hLength,
    ((store.hops_iff_step ..).mp hHop).1, rfl⟩

/- A resolution lands somewhere at its first hop or later on. -/
theorem Visits.first_or_later
    {l : Location}
    (hVisits : store.Visits limit start l) :
    ∃ r,
      start.reference? = some r
        ∧ ((∃ node, store.Lands r start.scope l node)
          ∨ ∃ hop q,
              store.Hops start hop q
                ∧ store.Visits (limit - 1) q l) := by
  rcases hVisits with
    ⟨r, _, node, ⟨hops, stop, hTrail, hLength, hReference, rfl⟩,
      hLands⟩
  cases hTrail.chain with
  | nil _ => exact ⟨r, hReference, Or.inl ⟨node, hLands⟩⟩
  | @cons _ q _ hop rest hHop hRest =>
      have hFirst := ((store.hops_iff_step ..).mp hHop).1
      have hDistinct := (List.nodup_cons.mp hTrail.distinct).2
      have hShorter : rest.length < limit - 1 := by
        rw [List.length_cons] at hLength
        omega
      refine ⟨hop.reference, hFirst, Or.inr ⟨hop, q, hHop, ?_⟩⟩
      exact
        ⟨r, _, node,
          ⟨rest, stop, ⟨hRest, hDistinct⟩, hShorter, hReference, rfl⟩,
          hLands⟩

/- A resolution that starts without a reference lands nowhere. -/
theorem not_visits_of_reference?_eq_none
    (hNone : start.reference? = none)
    (l : Location) :
    ¬ store.Visits limit start l := by
  intro hVisits
  rcases hVisits.first_or_later with ⟨r, hReference, -⟩
  rw [hNone] at hReference
  cases hReference

/- After a step it lands where the step does, or later on. -/
theorem Visits.eq_or_later
    {r : Reference}
    {landing : Landing}
    {l : Location}
    (hReference : start.reference? = some r)
    (hStep : store.step r start.scope = .ok landing)
    (hVisits : store.Visits limit start l) :
    l = landing.location
      ∨ store.Visits (limit - 1) ⟨landing.value, landing.scope⟩ l := by
  rcases hVisits.first_or_later with
    ⟨r', hReference', ⟨node, hLands⟩ | ⟨hop, q, hHop, hLater⟩⟩
  · rw [hReference] at hReference'
    cases hReference'
    rcases (store.step_eq_ok_iff ..).mp hStep with
      ⟨node', hint, hLands', -, -⟩
    exact Or.inl (hLands.unique hLands').1
  · rw [hops_iff_step, hReference] at hHop
    rcases hHop with ⟨hSame, hStep'⟩
    cases hSame
    rw [hStep] at hStep'
    cases hStep'
    exact Or.inr hLater

/- A trail goes the same way where its lookups do. -/
theorem Trail.transfer
    {hops : List Hop}
    (hSame :
      ∀ r scope,
        store.LooksUp limit start r scope →
          store'.step r scope = store.step r scope)
    (hTrail : store.Trail start hops stop)
    (hLength : hops.length ≤ limit) :
    store'.Trail start hops stop := by
  induction hops using List.reverseRecOn generalizing stop with
  | nil =>
      cases hTrail.chain
      exact Trail.nil store' start
  | append_singleton hops hop ih =>
      rcases hTrail.last_hop with ⟨p, hBefore, hHop, hNew⟩
      have hShorter : hops.length < limit := by
        simpa [Nat.succ_le_iff] using hLength
      have hLookup := hBefore.looksUp hShorter hHop
      apply (ih hBefore hShorter.le).snoc _ hNew
      rw [hops_iff_step] at hHop ⊢
      rw [hSame _ _ hLookup]
      exact hHop

/- So the outcome of a value is the same. -/
theorem Outcome.transfer
    {result : Except ResolveError Literal}
    (hSame :
      ∀ r scope,
        store.LooksUp limit start r scope →
          store'.step r scope = store.step r scope)
    (hOutcome : store.Outcome limit start result) :
    store'.Outcome limit start result := by
  cases hOutcome with
  | literal hTrail hLength hReference hLiteral =>
      exact
        Outcome.literal (hTrail.transfer hSame hLength) hLength
          hReference hLiteral
  | nullValue hTrail hLength hNull =>
      exact
        Outcome.nullValue (hTrail.transfer hSame hLength) hLength
          hNull
  | depthExceeded hTrail hLength hReference =>
      exact
        Outcome.depthExceeded (hTrail.transfer hSame hLength.le)
          hLength hReference
  | @defect hops stop r e hTrail hLength hReference hDefect =>
      have hStep :=
        hSame r stop.scope ⟨hops, stop, hTrail, hLength, hReference, rfl⟩
      apply
        Outcome.defect (hTrail.transfer hSame hLength.le) hLength
          hReference
      rw [← step_eq_error_iff] at hDefect ⊢
      rw [hStep, hDefect]
  | @cycle hops stop r l node hTrail hLength hReference hLands hMem =>
      rcases hTrail.chain.exists_hop_of_lands hReference hLands hMem
        with ⟨q, hHop⟩
      have hStep := hSame _ _ (hTrail.looksUp hLength hHop)
      have hHop' : store'.Hops stop ⟨r, l⟩ q := by
        rw [hops_iff_step] at hHop ⊢
        rw [hStep]
        exact hHop
      cases hHop' with
      | intro _ hLands' _ =>
          exact
            Outcome.cycle (hTrail.transfer hSame hLength.le) hLength
              hReference hLands' hMem

/- A resolution depends on its lookups only. -/
theorem resolve_congr
    {raw : Json}
    {scope : Scope}
    (hSame :
      ∀ r scope',
        store.LooksUp limit ⟨raw, scope⟩ r scope' →
          store'.step r scope' = store.step r scope') :
    store'.resolve limit raw scope = store.resolve limit raw scope :=
  ((store.outcome_resolve limit raw scope).transfer hSame).resolve_eq

end Store

end DesignTokens

------------------------------------------------------------
-- Lookups without Hints
------------------------------------------------------------

namespace DesignTokens

namespace Collection

/- The layers that a layer sees without a hint. -/
def visible (c : Collection) : List Collection :=
  Scope.searchOrder ⟨c, none⟩

example : semantic.visible = [.semantic, .primitives] := rfl

theorem self_mem_visible (c : Collection) : c ∈ c.visible := by
  cases c <;> decide

/- A layer sees what the layers it sees do. -/
theorem visible_trans
    {b c d : Collection}
    (hFirst : c ∈ b.visible)
    (hSecond : d ∈ c.visible) :
    d ∈ b.visible := by
  revert hFirst hSecond
  cases b <;> cases c <;> cases d <;> decide

end Collection

namespace Store

/- No hint is in force for any lookup of a resolution. -/
def Unhinted
    (store : Store)
    (limit : Nat)
    (start : Position) : Prop :=
  ∀ r scope,
    store.LooksUp limit start r scope → scope.hint = none

variable {store store' : Store}
variable {limit : Nat}
variable {start stop p q : Position}
variable {hop : Hop} {hops : List Hop}

/- A hop from a scope without a hint goes to a visible layer. -/
theorem Hops.layer_mem_visible
    (hHop : store.Hops p hop q)
    (hHint : p.scope.hint = none) :
    q.scope.layer ∈ p.scope.layer.visible := by
  cases hHop with
  | intro _ hLands _ =>
      have hMem := hLands.collection_mem
      obtain ⟨value, layer, hint⟩ := p
      cases hHint
      exact hMem

/- Without hints a trail stays among the visible layers. -/
theorem Unhinted.layer_mem_visible
    (hUnhinted : store.Unhinted limit start)
    (hTrail : store.Trail start hops stop)
    (hLength : hops.length ≤ limit) :
    stop.scope.layer ∈ start.scope.layer.visible := by
  induction hops using List.reverseRecOn generalizing stop with
  | nil =>
      cases hTrail.chain
      exact Collection.self_mem_visible _
  | append_singleton hops hop ih =>
      rcases hTrail.last_hop with ⟨p, hBefore, hHop, -⟩
      have hShorter : hops.length < limit := by
        simpa [Nat.succ_le_iff] using hLength
      have hHint := hUnhinted _ _ (hBefore.looksUp hShorter hHop)
      exact
        Collection.visible_trans (ih hBefore hShorter.le)
          (hHop.layer_mem_visible hHint)

/- A step depends on the layers searched only. -/
theorem step_congr
    {r : Reference}
    {scope : Scope}
    (hSame :
      ∀ c ∈ scope.searchOrder, store'.tree c = store.tree c) :
    store'.step r scope = store.step r scope := by
  have hNode (l : Location) (hLayer : l.collection ∈ scope.searchOrder) :
      store'.node? l = store.node? l := by
    rw [node?, node?, hSame l.collection hLayer]
  apply step_eq_of_lands
  · intro l hLayer hNone
    rw [hNode l hLayer, hNone]
  · intro l node hLands
    refine ⟨node, ?_, rfl⟩
    rw [hNode l hLands.collection_mem, hLands.node?_eq]

/- Without hints a resolution lands in visible layers. -/
theorem Unhinted.collection_mem_visible
    {l : Location}
    (hUnhinted : store.Unhinted limit start)
    (hVisits : store.Visits limit start l) :
    l.collection ∈ start.scope.layer.visible := by
  rcases hVisits with ⟨r, scope, node, hLookup, hLands⟩
  have hHint := hUnhinted r scope hLookup
  have hSearched := hLands.collection_mem
  rcases hLookup with ⟨hops, stop, hTrail, hLength, -, rfl⟩
  apply
    Collection.visible_trans
      (hUnhinted.layer_mem_visible hTrail hLength.le)
  obtain ⟨value, layer, hint⟩ := stop
  cases hHint
  exact hSearched

/-
  Without hints a resolution depends on the layers that its
  layer sees only.
-/
theorem Unhinted.resolve_eq
    {raw : Json}
    {scope : Scope}
    (hUnhinted : store.Unhinted limit ⟨raw, scope⟩)
    (hSame :
      ∀ c ∈ scope.layer.visible, store'.tree c = store.tree c) :
    store'.resolve limit raw scope =
      store.resolve limit raw scope := by
  apply resolve_congr
  intro r lookup hLookup
  have hHint := hUnhinted r lookup hLookup
  rcases hLookup with ⟨hops, stop, hTrail, hLength, -, rfl⟩
  have hLayer := hUnhinted.layer_mem_visible hTrail hLength.le
  apply step_congr
  intro c hMem
  apply hSame
  apply Collection.visible_trans hLayer
  obtain ⟨value, layer, hint⟩ := stop
  cases hHint
  exact hMem

/- Trees without hints leave a scope without a hint as it is. -/
theorem Chain.unhinted_visible
    (hFree :
      ∀ c ∈ start.scope.layer.visible, (store.tree c).HintFree)
    (hHint : start.scope.hint = none)
    (hChain : store.Chain start hops stop) :
    stop.scope.hint = none
      ∧ stop.scope.layer ∈ start.scope.layer.visible := by
  induction hops using List.reverseRecOn generalizing stop with
  | nil =>
      cases hChain
      exact ⟨hHint, Collection.self_mem_visible _⟩
  | append_singleton hops hop ih =>
      rcases hChain.last_hop with ⟨p, hBefore, hHop⟩
      rcases ih hBefore with ⟨hNone, hLayer⟩
      have hVisible :=
        Collection.visible_trans hLayer
          (hHop.layer_mem_visible hNone)
      refine ⟨?_, hVisible⟩
      cases hHop with
      | @intro r l node value hint _ hLands hContinues =>
          rw [hNone] at hContinues
          cases hContinues with
          | @record record _ hRecord hValue =>
              have hLocation := hLands.mem_locations
              rw [mem_locations_iff] at hLocation
              have hNode := hLands.node?_eq
              rw [node?, Json.descend?_eq_some_iff] at hNode
              have hRecordHint :=
                (hFree _ hVisible).record_hint hLocation.1 hNode.2
                  hRecord
              simp [hRecordHint]
          | plain _ => rfl

theorem unhinted_of_hintFree
    (hFree :
      ∀ c ∈ start.scope.layer.visible, (store.tree c).HintFree)
    (hHint : start.scope.hint = none) :
    store.Unhinted limit start := by
  intro r scope hLookup
  rcases hLookup with ⟨hops, stop, hTrail, -, -, rfl⟩
  exact (hTrail.chain.unhinted_visible hFree hHint).1

end Store

end DesignTokens
