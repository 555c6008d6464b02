import DesignTokens.Proofs.Reference.Limit
import Mathlib.Data.Finite.Prod
import Mathlib.Data.Fintype.Option
import Mathlib.Data.Fintype.Pigeonhole

/-
  This file compares the detection of cycles with the plain walk
  that never looks back.

  Key definitions include:
    * `Store.walk`
    * `Store.Endless`
    * `Store.StandsAt`
    * `Store.Loops`

  Key theorems include:
    * `Store.exceeds_wander_iff`
    * `Store.endless_iff_loops`
    * `Store.isCycle_of_standsAt`
    * `Store.cycle_detection`

  A chain that comes back to a location need not go round for
  ever, because the hint in force may have changed on the way.
  It does when it goes on under the same hint.
-/

------------------------------------------------------------
-- The Plain Walk
------------------------------------------------------------

namespace DesignTokens

namespace Store

/-
  Follow a chain for a number of further hops without looking
  for locations that it comes back to.
-/
def wander
    (store : Store)
    (limit : Nat) :
    Nat → Json → Scope → Except ResolveError Literal
| remaining, raw, scope =>
    match Reference.ofJson? raw with
    | none =>
        match Literal.ofJson? raw with
        | none => .error .nullValue
        | some l => .ok l
    | some r =>
        match remaining with
        | 0 => .error (.depthExceeded r limit)
        | remaining + 1 =>
            match store.step r scope with
            | .error e => .error e
            | .ok landing =>
                store.wander limit remaining
                  landing.value landing.scope

/- The plain walk from a value. -/
def walk
    (store : Store)
    (limit : Nat)
    (raw : Json)
    (scope : Scope) : Except ResolveError Literal :=
  store.wander limit limit raw scope

/- The plain walk exceeds every limit. -/
def Endless
    (store : Store)
    (start : Position) : Prop :=
  ∀ limit, Exceeds (store.walk limit start.value start.scope)

variable {store : Store}
variable {limit : Nat}
variable {start p q stop : Position}

/- A chain without a reference to begin with has no hops. -/
theorem not_referenceAfter
    {n : Nat}
    {r : Reference}
    (hReference : start.reference? = none) :
    ¬ store.ReferenceAfter start n r := by
  intro hAfter
  rcases hAfter with ⟨hops, stop, hChain, -, hStop⟩
  cases hChain with
  | nil _ => simp [hReference] at hStop
  | cons hHop _ =>
      have hStart := ((store.hops_iff_step ..).mp hHop).1
      simp [hReference] at hStart

/- A hop leads to the references after it. -/
theorem referenceAfter_succ_iff
    {hop : Hop}
    {n : Nat}
    {r : Reference}
    (hHop : store.Hops p hop q) :
    store.ReferenceAfter p (n + 1) r ↔
      store.ReferenceAfter q n r := by
  constructor
  · intro hAfter
    rcases hAfter with ⟨hops, stop, hChain, hLength, hStop⟩
    cases hChain with
    | nil _ => simp at hLength
    | cons hHop' hTail =>
        rcases hHop.unique hHop' with ⟨-, rfl⟩
        exact ⟨_, stop, hTail, by simpa using hLength, hStop⟩
  · intro hAfter
    rcases hAfter with ⟨hops, stop, hChain, hLength, hStop⟩
    exact
      ⟨hop :: hops, stop, Chain.cons hHop hChain,
        by simpa using hLength, hStop⟩

/- The plain walk ends where there is no reference. -/
theorem not_exceeds_wander
    {remaining : Nat}
    (hReference : p.reference? = none) :
    ¬ Exceeds (store.wander limit remaining p.value p.scope) := by
  intro hExceeds
  rcases hExceeds with ⟨r, limit', hEq⟩
  unfold wander at hEq
  rw [Position.reference?] at hReference
  cases hLiteral : Literal.ofJson? p.value <;>
    simp [hReference, hLiteral] at hEq

/- There is no hop from a reference with a defect. -/
theorem Defect.not_hops
    {r : Reference}
    {e : ResolveError}
    {hop : Hop}
    (hDefect : store.Defect r p.scope e)
    (hReference : p.reference? = some r) :
    ¬ store.Hops p hop q := by
  intro hHop
  rw [hops_iff_step, hReference] at hHop
  rcases hHop with ⟨hSame, hStep⟩
  cases hSame
  rw [(store.step_eq_error_iff ..).mpr hDefect] at hStep
  cases hStep

/-
  The plain walk exceeds its limit exactly when a chain of as
  many hops stands at a reference.
-/
theorem exceeds_wander_iff
    (remaining : Nat) :
    Exceeds (store.wander limit remaining p.value p.scope) ↔
      ∃ r, store.ReferenceAfter p remaining r := by
  induction remaining generalizing p with
  | zero =>
      cases hReference : p.reference? with
      | none =>
          simp only [not_exceeds_wander hReference,
            not_referenceAfter hReference, exists_false]
      | some r =>
          constructor
          · intro _
            exact ⟨r, [], p, Chain.nil p, rfl, hReference⟩
          · intro _
            refine ⟨r, limit, ?_⟩
            unfold wander
            rw [Position.reference?] at hReference
            simp only [hReference]
  | succ remaining ih =>
      cases hReference : p.reference? with
      | none =>
          simp only [not_exceeds_wander hReference,
            not_referenceAfter hReference, exists_false]
      | some r =>
          have hRead := hReference
          rw [Position.reference?] at hRead
          rcases store.defect_or_hops hReference with
            ⟨e, hDefect⟩ | ⟨l, q, hHop⟩
          · rw [wander]
            simp only [hRead, (store.step_eq_error_iff ..).mpr hDefect,
              hDefect.not_exceeds, false_iff]
            intro hAfter
            rcases hAfter with
              ⟨r', hops, stop, hChain, hLength, -⟩
            cases hChain with
            | nil _ => simp at hLength
            | cons hHop _ => exact hDefect.not_hops hReference hHop
          · have hStep := ((store.hops_iff_step ..).mp hHop).2
            rw [wander]
            simp only [hRead, hStep, referenceAfter_succ_iff hHop]
            exact ih

/- The plain walk goes on for ever when its chain does. -/
theorem endless_iff
    (store : Store)
    (start : Position) :
    store.Endless start ↔
      ∀ n, ∃ r, store.ReferenceAfter start n r := by
  unfold Endless walk
  simp only [exceeds_wander_iff]

/- Looking back changes a result to a cycle or not at all. -/
theorem follow_eq_wander_or_cycle
    (remaining : Nat)
    (hops : List Hop)
    (raw : Json)
    (scope : Scope) :
    (∃ chain,
      store.follow limit remaining hops raw scope =
        .error (.cycle chain)) ∨
      store.follow limit remaining hops raw scope =
        store.wander limit remaining raw scope := by
  induction remaining generalizing hops raw scope with
  | zero =>
      right
      unfold follow wander
      rfl
  | succ remaining ih =>
      rw [follow, wander]
      cases Reference.ofJson? raw with
      | none => exact Or.inr rfl
      | some r =>
          cases hStep : store.step r scope with
          | error e => simp only [hStep, or_true]
          | ok landing =>
              simp only [hStep]
              split
              · exact Or.inl ⟨_, rfl⟩
              · exact ih _ _ _

end Store

end DesignTokens

------------------------------------------------------------
-- Standing at a Location
------------------------------------------------------------

namespace DesignTokens

namespace Store

/-
  After a number of hops a chain stands at a location, and goes
  on from there under a hint.
-/
def StandsAt
    (store : Store)
    (start : Position)
    (n : Nat)
    (l : Location)
    (hint : Option Collection) : Prop :=
  ∃ hops hop stop,
    store.Chain start (hops ++ [hop]) stop
      ∧ hops.length + 1 = n
      ∧ hop.location = l
      ∧ stop.scope.hint = hint

/-
  A chain stands at one location twice and goes on under the
  same hint both times.
-/
def Loops
    (store : Store)
    (start : Position) : Prop :=
  ∃ i j l hint,
    i < j
      ∧ store.StandsAt start i l hint
      ∧ store.StandsAt start j l hint

variable {store : Store}
variable {start stop stop' : Position}
variable {hop hop' : Hop} {hops hops' : List Hop}

/- What a node goes on with depends on the node only. -/
theorem Continues.value_unique
    {node value value' : Json}
    {hint hint' next next' : Option Collection}
    (hContinues : Continues node hint value next)
    (hContinues' : Continues node hint' value' next') :
    value = value' := by
  cases hContinues with
  | record hRecord hValue =>
      cases hContinues' with
      | record _ hValue' =>
          rw [hValue] at hValue'
          exact Option.some.inj hValue'
      | plain hObject =>
          exact
            absurd
              (Record.isObject_of_isRecord
                (Record.isRecord_of_ofJson hRecord))
              hObject
  | plain hObject =>
      cases hContinues' with
      | record hRecord _ =>
          exact
            absurd
              (Record.isObject_of_isRecord
                (Record.isRecord_of_ofJson hRecord))
              hObject
      | plain _ => rfl

/- A hop comes to the position of its location and hint. -/
theorem Hops.stop_eq
    {p p' : Position}
    (hHop : store.Hops p hop stop)
    (hHop' : store.Hops p' hop' stop')
    (hLocation : hop.location = hop'.location)
    (hHint : stop.scope.hint = stop'.scope.hint) :
    stop = stop' := by
  cases hHop with
  | intro _ hLands hContinues =>
      cases hHop' with
      | intro _ hLands' hContinues' =>
          simp only at hLocation hHint
          subst hLocation hHint
          have hNode := hLands.node?_eq
          rw [hLands'.node?_eq] at hNode
          cases hNode
          cases hContinues.value_unique hContinues'
          rfl

/- A chain that has more hops stands at a reference before. -/
theorem Chain.referenceAfter
    {n : Nat}
    (hChain : store.Chain start hops stop)
    (hLength : n < hops.length) :
    ∃ r, store.ReferenceAfter start n r := by
  rcases hChain.take n with ⟨q, hTake, hDrop⟩
  have hNonempty : hops.drop n ≠ [] := by
    simpa using hLength
  rcases hDrop.exists_reference hNonempty with ⟨r, hReference⟩
  exact
    ⟨r, hops.take n, q, hTake,
      List.length_take_of_le hLength.le, hReference⟩

/- A chain that comes back to its position gets as long as wanted. -/
theorem Chain.exists_long
    (hChain : store.Chain start hops start)
    (hNonempty : hops ≠ [])
    (n : Nat) :
    ∃ long, store.Chain start long start ∧ n ≤ long.length := by
  induction n with
  | zero => exact ⟨[], Chain.nil start, by simp⟩
  | succ n ih =>
      rcases ih with ⟨long, hLong, hLength⟩
      refine ⟨hops ++ long, hChain.append hLong, ?_⟩
      have hPos := List.length_pos_iff.mpr hNonempty
      rw [List.length_append]
      omega

/- A chain that loops goes on for ever. -/
theorem Loops.endless
    (hLoops : store.Loops start) :
    store.Endless start := by
  rcases hLoops with
    ⟨i, j, l, hint, hLt, ⟨hops, hop, stop, hChain, rfl, rfl, rfl⟩,
      ⟨hops', hop', stop', hChain', rfl, hLocation, hHint⟩⟩
  rcases hChain.last_hop with ⟨p, -, hHop⟩
  rcases hChain'.last_hop with ⟨p', -, hHop'⟩
  -- Both hops come to one position, so what lies between is a loop.
  have hStop := hHop'.stop_eq hHop hLocation hHint
  subst hStop
  have hLength :
      (hops ++ [hop]).length < (hops' ++ [hop']).length := by
    simpa using hLt
  rcases hChain.extends_of_length_le hChain' hLength.le with
    ⟨rest, hEq, hRest⟩
  have hNonempty : rest ≠ [] := by
    rintro rfl
    simp [hEq] at hLength
  rw [endless_iff]
  intro n
  rcases hRest.exists_long hNonempty (n + 1) with
    ⟨long, hLong, hLongLength⟩
  apply (hChain.append hLong).referenceAfter
  rw [List.length_append]
  omega

/- An endless chain stands somewhere after every hop. -/
theorem Endless.exists_standsAt
    (hEndless : store.Endless start)
    (n : Nat) :
    ∃ l hint,
      l ∈ store.locations ∧ store.StandsAt start (n + 1) l hint := by
  rw [endless_iff] at hEndless
  rcases hEndless (n + 1) with ⟨r, hops, stop, hChain, hLength, -⟩
  have hNonempty : hops ≠ [] := by
    rintro rfl
    simp at hLength
  have hEq := List.dropLast_append_getLast hNonempty
  refine
    ⟨(hops.getLast hNonempty).location, stop.scope.hint, ?_,
      hops.dropLast, hops.getLast hNonempty, stop, ?_, ?_, rfl, rfl⟩
  · exact
      hChain.mem_locations
        (List.mem_map.mpr ⟨_, List.getLast_mem hNonempty, rfl⟩)
  · rw [hEq]
    exact hChain
  · rw [List.length_dropLast]
    omega

/- There are finitely many layers. -/
instance : Fintype Collection :=
  ⟨⟨Collection.all, by decide⟩, Collection.mem_all⟩

/-
  An endless chain loops: it stands at some location under some
  hint after each hop, and there are finitely many of both.
-/
theorem Endless.loops
    (hEndless : store.Endless start) :
    store.Loops start := by
  choose location hint hMem hStands using hEndless.exists_standsAt
  let place (n : Nat) : store.locations × Option Collection :=
    (⟨location n, hMem n⟩, hint n)
  rcases Finite.exists_ne_map_eq_of_infinite place with
    ⟨i, j, hNe, hSame⟩
  have hLocation : location i = location j :=
    congrArg (fun x => x.1.val) hSame
  have hHint : hint i = hint j := congrArg Prod.snd hSame
  rcases Nat.lt_or_gt_of_ne hNe with hLt | hGt
  · refine
      ⟨i + 1, j + 1, location j, hint j, by omega, ?_, hStands j⟩
    rw [← hLocation, ← hHint]
    exact hStands i
  · refine
      ⟨j + 1, i + 1, location j, hint j, by omega, hStands j, ?_⟩
    rw [← hLocation, ← hHint]
    exact hStands i

theorem endless_iff_loops
    (store : Store)
    (start : Position) :
    store.Endless start ↔ store.Loops start :=
  ⟨Endless.loops, Loops.endless⟩

end Store

end DesignTokens

------------------------------------------------------------
-- Cycles
------------------------------------------------------------

namespace DesignTokens

namespace Store

variable {store : Store}
variable {limit : Nat}
variable {start stop : Position}

/- Standing at one location twice makes a chain no trail. -/
theorem Trail.length_lt_of_standsAt
    {hops : List Hop}
    {i j : Nat}
    {l : Location}
    {hint hint' : Option Collection}
    (hTrail : store.Trail start hops stop)
    (hLt : i < j)
    (hFirst : store.StandsAt start i l hint)
    (hSecond : store.StandsAt start j l hint') :
    hops.length < j := by
  rcases hFirst with ⟨first, hop, p, hChain, rfl, rfl, -⟩
  rcases hSecond with ⟨second, hop', p', hChain', rfl, hSame, -⟩
  by_contra hShort
  have hWithin : (second ++ [hop']).length ≤ hops.length := by
    simpa using hShort
  rcases hChain'.extends_of_length_le hTrail.chain hWithin with
    ⟨rest, rfl, -⟩
  have hBefore : (first ++ [hop]).length ≤ second.length := by
    rw [List.length_append, List.length_singleton]
    omega
  rcases hChain'.last_hop with ⟨q, hSecondChain, -⟩
  rcases hChain.extends_of_length_le hSecondChain hBefore with
    ⟨between, rfl, -⟩
  have hDistinct := hTrail.distinct
  rw [List.append_assoc, List.map_append, List.nodup_append']
    at hDistinct
  have hFirstMem :
      hop.location ∈ (first ++ [hop] ++ between).map Hop.location := by
    simp
  have hSecondMem :
      hop.location ∈ ([hop'] ++ rest).map Hop.location := by
    simp [hSame]
  exact hDistinct.2.2 hFirstMem hSecondMem

/- So the chain goes on after a trail from the same position. -/
theorem Trail.exists_hop_of_standsAt
    {hops : List Hop}
    {i j : Nat}
    {l : Location}
    {hint hint' : Option Collection}
    (hTrail : store.Trail start hops stop)
    (hLt : i < j)
    (hFirst : store.StandsAt start i l hint)
    (hSecond : store.StandsAt start j l hint') :
    ∃ hop q, store.Hops stop hop q := by
  have hLonger := hTrail.length_lt_of_standsAt hLt hFirst hSecond
  rcases hSecond with ⟨second, last, stop', hChain, rfl, -, -⟩
  have hWithin : hops.length ≤ (second ++ [last]).length := by
    rw [List.length_append, List.length_singleton]
    omega
  rcases hTrail.chain.extends_of_length_le hChain hWithin with
    ⟨rest, hEq, hRest⟩
  cases hRest with
  | nil _ =>
      have hLength := congrArg List.length hEq
      simp only [List.append_nil, List.length_append,
        List.length_singleton] at hLength
      omega
  | cons hHop _ => exact ⟨_, _, hHop⟩

/-
  Every limit above the number of locations shows a cycle, once
  the chain stands at one location twice.
-/
theorem isCycle_of_standsAt
    {i j : Nat}
    {l : Location}
    {hint hint' : Option Collection}
    (hLt : i < j)
    (hFirst : store.StandsAt start i l hint)
    (hSecond : store.StandsAt start j l hint')
    (hLimit : store.locations.card < limit) :
    ∃ chain,
      store.resolve limit start.value start.scope =
        .error (.cycle chain) := by
  have hOutcome :=
    store.outcome_resolve limit start.value start.scope
  generalize
    hResult : store.resolve limit start.value start.scope = result
    at hOutcome
  cases hOutcome with
  | literal hTrail _ hReference _ =>
      rcases hTrail.exists_hop_of_standsAt hLt hFirst hSecond with
        ⟨hop, q, hHop⟩
      have hStop := ((store.hops_iff_step ..).mp hHop).1
      simp [hReference] at hStop
  | nullValue hTrail _ hNull =>
      rcases hTrail.exists_hop_of_standsAt hLt hFirst hSecond with
        ⟨hop, q, hHop⟩
      have hStop := ((store.hops_iff_step ..).mp hHop).1
      simp [Position.reference?, hNull, Reference.ofJson?] at hStop
  | depthExceeded hTrail hLength _ =>
      have hCard := hTrail.length_le_card
      omega
  | defect hTrail _ hReference hDefect =>
      rcases hTrail.exists_hop_of_standsAt hLt hFirst hSecond with
        ⟨hop, q, hHop⟩
      exact absurd hHop (hDefect.not_hops hReference)
  | cycle _ _ _ _ _ => exact ⟨_, rfl⟩

/- The chain of a cycle stands at one location twice. -/
theorem standsAt_of_cycle
    {raw : Json}
    {scope : Scope}
    {chain : List Hop}
    (hCycle :
      store.resolve limit raw scope = .error (.cycle chain)) :
    ∃ i l hint hint',
      i < chain.length
        ∧ store.StandsAt ⟨raw, scope⟩ i l hint
        ∧ store.StandsAt ⟨raw, scope⟩ chain.length l hint' := by
  rcases exists_trail_of_cycle hCycle with
    ⟨trail, last, p, q, rfl, hTrail, hHop, -, hMem⟩
  rcases hTrail.chain.exists_hop_of_mem hMem with
    ⟨before, hop, after, _, back, rfl, hLocation, hBefore, hFirst, -⟩
  refine
    ⟨before.length + 1, hop.location, back.scope.hint, q.scope.hint,
      ?_,
      ⟨before, hop, back, hBefore.append (Chain.single hFirst), rfl,
        rfl, rfl⟩,
      ⟨before ++ hop :: after, last, q,
        hTrail.chain.append (Chain.single hHop), ?_, hLocation.symm,
        rfl⟩⟩
  · simp only [List.length_append, List.length_cons, List.length_nil]
    omega
  · simp only [List.length_append, List.length_cons, List.length_nil]

/-
  What a cycle says of the plain walk.  The two results differ
  on cycles only.  A cycle comes back to a location; when the
  chain goes on from there under the same hint as before, the
  plain walk exceeds every limit.  In general it does so exactly
  when its chain loops, and then every limit above the number of
  addressable locations shows a cycle.
-/
theorem cycle_detection
    (store : Store)
    (raw : Json)
    (scope : Scope) :
    (∀ limit,
      (∃ chain,
        store.resolve limit raw scope = .error (.cycle chain)) ∨
        store.resolve limit raw scope =
          store.walk limit raw scope)
      ∧ (∀ limit chain,
          store.resolve limit raw scope = .error (.cycle chain) →
            ∃ i l hint hint',
              i < chain.length
                ∧ store.StandsAt ⟨raw, scope⟩ i l hint
                ∧ store.StandsAt ⟨raw, scope⟩ chain.length l hint'
                ∧ (hint = hint' → store.Endless ⟨raw, scope⟩))
      ∧ (store.Endless ⟨raw, scope⟩ ↔ store.Loops ⟨raw, scope⟩)
      ∧ (store.Endless ⟨raw, scope⟩ →
          ∀ limit > store.locations.card, ∃ chain,
            store.resolve limit raw scope =
              .error (.cycle chain)) := by
  refine
    ⟨fun limit => store.follow_eq_wander_or_cycle limit [] raw scope,
      ?_, store.endless_iff_loops ⟨raw, scope⟩, ?_⟩
  · intro limit chain hCycle
    rcases standsAt_of_cycle hCycle with
      ⟨i, l, hint, hint', hLt, hFirst, hSecond⟩
    refine ⟨i, l, hint, hint', hLt, hFirst, hSecond, ?_⟩
    rintro rfl
    exact Loops.endless ⟨i, chain.length, l, hint, hLt, hFirst, hSecond⟩
  · intro hEndless limit hLimit
    rcases hEndless.loops with
      ⟨i, j, l, hint, hLt, hFirst, hSecond⟩
    exact isCycle_of_standsAt hLt hFirst hSecond hLimit

/-
  A store whose chain comes back under a new hint: the primitive
  `b` brings in the hint that turns the second visit of `a` to
  another `b`.
-/
def hintedReturn : Store where
  documents :=
    { primitives :=
        { root := .object [
            ("b", .object [
              ("$value", .text "\x7ba\x7d"),
              ("$collection", .text "component")])]
          uniqueKeys := by
            simp [Json.UniqueKeys, Json.UniqueKeysMembers] }
      semantic :=
        { root := .object [
            ("a", .object [("$value", .text "\x7bb\x7d")])]
          uniqueKeys := by
            simp [Json.UniqueKeys, Json.UniqueKeysMembers] }
      component :=
        { root := .object [
            ("b", .object [("$value", .text "#fff")])]
          uniqueKeys := Json.uniqueKeys_token "b" "#fff" } }
  isObject c := by cases c <;> rfl

/- A cycle is reported where the plain walk reaches a literal. -/
theorem hintedReturn_cycle_and_literal :
    hintedReturn.resolve 10 (.text "\x7ba\x7d") ⟨.semantic, none⟩ =
        .error (.cycle [
          ⟨⟨"a"⟩, ⟨.semantic, ["a"]⟩⟩,
          ⟨⟨"b"⟩, ⟨.primitives, ["b"]⟩⟩,
          ⟨⟨"a"⟩, ⟨.semantic, ["a"]⟩⟩])
      ∧ hintedReturn.walk 10 (.text "\x7ba\x7d") ⟨.semantic, none⟩ =
          .ok (.text "#fff")
      ∧ ¬ hintedReturn.Endless
          ⟨.text "\x7ba\x7d", ⟨.semantic, none⟩⟩ := by
  have hWalk :
      hintedReturn.walk 10 (.text "\x7ba\x7d") ⟨.semantic, none⟩ =
        .ok (.text "#fff") := rfl
  refine ⟨rfl, hWalk, ?_⟩
  intro hEndless
  rcases hEndless 10 with ⟨r, limit, hExceeds⟩
  rw [hWalk] at hExceeds
  cases hExceeds

end Store

end DesignTokens
