import DesignTokens.Proofs.Reference.Lookup
import DesignTokens.Proofs.Reference.Loop

/-
  This file compares a reference with what it goes on with.

  Key theorems include:
    * `Store.Chain.goes_on`
    * `Store.Trail.visits_iff`
    * `Store.resolve_of_hop`
    * `Store.resolve_before_hop`
    * `Store.alias_transparent`

  A reference takes one hop more than its target and has landed
  at one location more.  So it finds the literal of its target
  one hop later, unless the way from there leads through the
  target again.
-/

------------------------------------------------------------
-- Locations on the Way to a Literal
------------------------------------------------------------

namespace DesignTokens

namespace Store

variable {store : Store}
variable {limit : Nat}
variable {start stop p q : Position}
variable {hop : Hop} {hops : List Hop}
variable {l : Location}

/-
  A chain that ends at no reference goes on wherever another one
  from the same position stands at a reference.
-/
theorem Chain.goes_on
    {first : List Hop}
    {r : Reference}
    (hChain : store.Chain start hops stop)
    (hEnd : stop.reference? = none)
    (hFirst : store.Chain start first p)
    (hReference : p.reference? = some r) :
    ∃ hop rest q, hops = first ++ hop :: rest ∧ store.Hops p hop q := by
  rcases Nat.le_total hops.length first.length with hLe | hLe
  · rcases hChain.extends_of_length_le hFirst hLe with
      ⟨rest, rfl, hRest⟩
    cases hRest with
    | nil _ => simp [hEnd] at hReference
    | cons hHop _ =>
        have hStop := ((store.hops_iff_step ..).mp hHop).1
        simp [hEnd] at hStop
  · rcases hFirst.extends_of_length_le hChain hLe with
      ⟨rest, rfl, hRest⟩
    cases hRest with
    | nil _ => simp [hEnd] at hReference
    | cons hHop _ => exact ⟨_, _, _, rfl, hHop⟩

/-
  A resolution that comes to its end visits the locations of its
  trail and no others.
-/
theorem Trail.visits_iff
    (hTrail : store.Trail start hops stop)
    (hLength : hops.length ≤ limit)
    (hReference : stop.reference? = none) :
    store.Visits limit start l ↔ l ∈ hops.map Hop.location := by
  constructor
  · intro hVisits
    rcases hVisits with
      ⟨r, _, node, ⟨first, p, hFirst, -, hAt, rfl⟩, hLands⟩
    rcases hTrail.chain.goes_on hReference hFirst.chain hAt with
      ⟨hop, rest, q, rfl, hHop⟩
    -- The hop that the trail makes there lands where it visits.
    cases hHop with
    | intro hSame hLands' _ =>
        rw [hAt] at hSame
        cases hSame
        simp [(hLands.unique hLands').1]
  · intro hMem
    rcases hTrail.exists_hop_of_mem hMem with
      ⟨before, hop, p, q, hBefore, hHop, rfl, hShorter, -⟩
    have hLookup := hBefore.looksUp (hShorter.trans_le hLength) hHop
    cases hHop with
    | intro _ hLands _ => exact ⟨_, _, _, hLookup, hLands⟩

end Store

end DesignTokens

------------------------------------------------------------
-- One Hop More
------------------------------------------------------------

namespace DesignTokens

namespace Store

variable {store : Store}
variable {limit : Nat}
variable {p q : Position}
variable {hop : Hop}
variable {literal : Literal}

/- What a reference resolves to, its target resolves to. -/
theorem resolve_of_hop
    (hHop : store.Hops p hop q)
    (hResolve : store.resolve limit p.value p.scope = .ok literal) :
    store.resolve limit q.value q.scope = .ok literal := by
  rw [resolve_eq_ok_iff] at hResolve ⊢
  rcases hResolve with
    ⟨hops, stop, hTrail, hLength, hReference, hLiteral⟩
  cases hTrail.chain with
  | nil _ =>
      rw [hops_iff_step] at hHop
      rw [hHop.1] at hReference
      cases hReference
  | @cons _ _ _ _ rest hFirst hRest =>
      obtain rfl := (hHop.unique hFirst).2
      have hDistinct := (List.nodup_cons.mp hTrail.distinct).2
      rw [List.length_cons] at hLength
      exact
        ⟨rest, stop, ⟨hRest, hDistinct⟩, by omega, hReference,
          hLiteral⟩

/-
  What the target resolves to, its reference resolves to one hop
  later, or the way leads through the target again.
-/
theorem resolve_before_hop
    (hHop : store.Hops p hop q)
    (hResolve : store.resolve limit q.value q.scope = .ok literal) :
    (¬ store.Visits limit q hop.location →
      store.resolve (limit + 1) p.value p.scope = .ok literal)
      ∧ (store.Visits limit q hop.location →
          ∃ chain,
            store.resolve (limit + 1) p.value p.scope =
              .error (.cycle chain)) := by
  rcases resolve_eq_ok_iff.mp hResolve with
    ⟨hops, stop, hTrail, hLength, hReference, hLiteral⟩
  rw [hTrail.visits_iff hLength hReference]
  constructor
  · intro hNew
    exact
      resolve_eq_ok_iff.mpr
        ⟨hop :: hops, stop, Trail.cons hHop hTrail hNew,
          Nat.succ_le_succ hLength, hReference, hLiteral⟩
  · intro hMem
    rcases hTrail.exists_hop_of_mem hMem with
      ⟨before, back, p', q', hBefore, hBack, hLocation, hShorter, hNew⟩
    have hWhole := Trail.cons hHop hBefore hNew
    cases hBack with
    | intro hAt hLands _ =>
        simp only at hLocation
        subst hLocation
        have hOutcome :
            store.Outcome (limit + 1) p (.error (.cycle _)) :=
          Outcome.cycle hWhole
            (Nat.succ_lt_succ (hShorter.trans_le hLength)) hAt hLands
            (by simp)
        exact ⟨_, hOutcome.resolve_eq⟩

/-
  An alias is transparent.  A reference that resolves to a
  literal lands at a node that goes on to the same literal.  If
  the node goes on to a literal, then the reference resolves to
  it with one hop more, and it is a cycle exactly when the way
  from the node leads to the node again.
-/
theorem alias_transparent
    {raw value : Json}
    {scope : Scope}
    {r : Reference}
    {l : Location}
    {node : Json}
    {hint : Option Collection}
    (hReference : Reference.ofJson? raw = some r)
    (hLocate : store.locate? r scope = some (l, node))
    (hContinues : Continues node scope.hint value hint) :
    (∀ literal,
      store.resolve limit raw scope = .ok literal →
        store.resolve limit value ⟨l.collection, hint⟩ = .ok literal)
      ∧ ∀ literal,
          store.resolve limit value ⟨l.collection, hint⟩ =
              .ok literal →
            (¬ store.Visits limit ⟨value, ⟨l.collection, hint⟩⟩ l →
              store.resolve (limit + 1) raw scope = .ok literal)
              ∧ (store.Visits limit ⟨value, ⟨l.collection, hint⟩⟩ l →
                  ∃ chain,
                    store.resolve (limit + 1) raw scope =
                      .error (.cycle chain)) := by
  have hLands := (store.locate?_eq_some_iff ..).mp hLocate
  have hHop :
      store.Hops ⟨raw, scope⟩ ⟨r, l⟩ ⟨value, ⟨l.collection, hint⟩⟩ :=
    Hops.intro hReference hLands hContinues
  exact
    ⟨fun _ hResolve => resolve_of_hop hHop hResolve,
      fun _ hResolve => resolve_before_hop hHop hResolve⟩

/-
  Where a hint comes in on the way, the target of an alias may
  find its literal by way of itself, and then the alias is a
  cycle.
-/
theorem hintedReturn_alias :
    Reference.ofJson? (.text "\x7ba\x7d") = some ⟨"a"⟩
      ∧ hintedReturn.locate? ⟨"a"⟩ ⟨.semantic, none⟩ =
          some (⟨.semantic, ["a"]⟩,
            .object [("$value", .text "\x7bb\x7d")])
      ∧ Continues (.object [("$value", .text "\x7bb\x7d")]) none
          (.text "\x7bb\x7d") none
      ∧ hintedReturn.resolve 3 (.text "\x7bb\x7d") ⟨.semantic, none⟩ =
          .ok (.text "#fff")
      ∧ hintedReturn.Visits 3
          ⟨.text "\x7bb\x7d", ⟨.semantic, none⟩⟩ ⟨.semantic, ["a"]⟩
      ∧ ∃ chain,
          hintedReturn.resolve 4 (.text "\x7ba\x7d") ⟨.semantic, none⟩ =
            .error (.cycle chain) := by
  have hReference :
      Reference.ofJson? (.text "\x7ba\x7d") = some ⟨"a"⟩ :=
    rfl
  have hLocate :
      hintedReturn.locate? ⟨"a"⟩ ⟨.semantic, none⟩ =
        some (⟨.semantic, ["a"]⟩,
          .object [("$value", .text "\x7bb\x7d")]) :=
    rfl
  have hContinues :
      Continues (.object [("$value", .text "\x7bb\x7d")]) none
        (.text "\x7bb\x7d") none :=
    (enter_eq_ok_iff ⟨"a"⟩ ..).mp rfl
  have hTarget :
      hintedReturn.resolve 3 (.text "\x7bb\x7d") ⟨.semantic, none⟩ =
        .ok (.text "#fff") :=
    rfl
  have hAlias :=
    (alias_transparent hReference hLocate hContinues).2 _ hTarget
  have hVisits :
      hintedReturn.Visits 3
        ⟨.text "\x7bb\x7d", ⟨.semantic, none⟩⟩ ⟨.semantic, ["a"]⟩ := by
    by_contra hNot
    have hLiteral := hAlias.1 hNot
    cases hLiteral
  exact
    ⟨hReference, hLocate, hContinues, hTarget, hVisits,
      hAlias.2 hVisits⟩

end Store

end DesignTokens
