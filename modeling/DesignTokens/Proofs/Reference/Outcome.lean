import DesignTokens.Proofs.Reference.Chain

/-
  This file proves that following references computes the
  meaning of chains.

  Key definitions include:
    * `Store.Outcome`

  Key theorems include:
    * `Store.follow_chain`
    * `Store.outcome_resolve`
    * `Store.Outcome.resolve_eq`
    * `Store.resolve_eq_iff_outcome`

  The meaning is stated over trails, without the order in which
  the search makes its checks.  Soundness keeps the invariant
  that the hops made so far are a trail and that they and the
  hops left add up to the limit.
-/

------------------------------------------------------------
-- Outcomes
------------------------------------------------------------

namespace DesignTokens

namespace Store

/-
  What a value stands for under a limit of hops.  The trail from
  it ends at a literal or at null, or it stops at a reference:
  at the limit, at a defect, or where it would come back to one
  of its own locations.
-/
inductive Outcome
    (store : Store)
    (limit : Nat)
    (start : Position) : Except ResolveError Literal → Prop
| literal {hops : List Hop} {stop : Position} {l : Literal} :
    store.Trail start hops stop →
      hops.length ≤ limit →
        stop.reference? = none →
          Literal.ofJson? stop.value = some l →
            store.Outcome limit start (.ok l)
| nullValue {hops : List Hop} {stop : Position} :
    store.Trail start hops stop →
      hops.length ≤ limit →
        stop.value = .null →
          store.Outcome limit start (.error .nullValue)
| depthExceeded
    {hops : List Hop} {stop : Position} {r : Reference} :
    store.Trail start hops stop →
      hops.length = limit →
        stop.reference? = some r →
          store.Outcome limit start (.error (.depthExceeded r limit))
| defect
    {hops : List Hop} {stop : Position}
    {r : Reference} {e : ResolveError} :
    store.Trail start hops stop →
      hops.length < limit →
        stop.reference? = some r →
          store.Defect r stop.scope e →
            store.Outcome limit start (.error e)
| cycle
    {hops : List Hop} {stop : Position}
    {r : Reference} {l : Location} {node : Json} :
    store.Trail start hops stop →
      hops.length < limit →
        stop.reference? = some r →
          store.Lands r stop.scope l node →
            l ∈ hops.map Hop.location →
              store.Outcome limit start
                (.error (.cycle (hops ++ [⟨r, l⟩])))

end Store

end DesignTokens

------------------------------------------------------------
-- Single Rounds
------------------------------------------------------------

namespace DesignTokens

namespace Store

variable {store : Store}
variable {limit remaining : Nat}
variable {trail : List Hop} {hop : Hop}
variable {p q : Position}

theorem follow_literal
    {l : Literal}
    (hReference : p.reference? = none)
    (hLiteral : Literal.ofJson? p.value = some l) :
    store.follow limit remaining trail p.value p.scope = .ok l := by
  unfold follow
  rw [Position.reference?] at hReference
  simp only [hReference, hLiteral]

theorem follow_null
    (hNull : p.value = .null) :
    store.follow limit remaining trail p.value p.scope =
      .error .nullValue := by
  unfold follow
  simp only [hNull, Reference.ofJson?, Literal.ofJson?]

theorem follow_zero
    {r : Reference}
    (hReference : p.reference? = some r) :
    store.follow limit 0 trail p.value p.scope =
      .error (.depthExceeded r limit) := by
  unfold follow
  rw [Position.reference?] at hReference
  simp only [hReference]

theorem follow_defect
    {r : Reference}
    {e : ResolveError}
    (hReference : p.reference? = some r)
    (hDefect : store.Defect r p.scope e) :
    store.follow limit (remaining + 1) trail p.value p.scope =
      .error e := by
  unfold follow
  rw [Position.reference?] at hReference
  simp only [hReference, (store.step_eq_error_iff ..).mpr hDefect]

theorem follow_revisit
    (hHop : store.Hops p hop q)
    (hMem : hop.location ∈ trail.map Hop.location) :
    store.follow limit (remaining + 1) trail p.value p.scope =
      .error (.cycle (trail ++ [hop])) := by
  unfold follow
  rw [hops_iff_step, Position.reference?] at hHop
  simp only [hHop.1, hHop.2, if_pos hMem]

theorem follow_hop
    (hHop : store.Hops p hop q)
    (hNew : hop.location ∉ trail.map Hop.location) :
    store.follow limit (remaining + 1) trail p.value p.scope =
      store.follow limit remaining (trail ++ [hop])
        q.value q.scope := by
  rw [follow]
  rw [hops_iff_step, Position.reference?] at hHop
  simp only [hHop.1, hHop.2, if_neg hNew]

/- From a reference there is a hop, or it has a defect. -/
theorem defect_or_hops
    {r : Reference}
    (hReference : p.reference? = some r) :
    (∃ e, store.Defect r p.scope e) ∨
      ∃ l q, store.Hops p ⟨r, l⟩ q := by
  cases hStep : store.step r p.scope with
  | error e => exact Or.inl ⟨e, (store.step_eq_error_iff ..).mp hStep⟩
  | ok landing =>
      right
      obtain ⟨l, value, scope⟩ := landing
      exact
        ⟨l, ⟨value, scope⟩,
          (store.hops_iff_step ..).mpr ⟨hReference, hStep⟩⟩

end Store

end DesignTokens

------------------------------------------------------------
-- Soundness
------------------------------------------------------------

namespace DesignTokens

namespace Store

variable {store : Store}
variable {limit : Nat}
variable {start stop : Position}

/- A value that is no reference and has no literal form is null. -/
theorem value_eq_null
    {j : Json}
    (hLiteral : Literal.ofJson? j = none) :
    j = .null := by
  cases j <;> simp_all [Literal.ofJson?]

/- A trail that ends at no reference has its outcome there. -/
theorem outcome_follow_value
    {remaining : Nat}
    {hops : List Hop}
    (hTrail : store.Trail start hops stop)
    (hLength : hops.length ≤ limit)
    (hReference : stop.reference? = none) :
    store.Outcome limit start
      (store.follow limit remaining hops stop.value stop.scope) := by
  cases hLiteral : Literal.ofJson? stop.value with
  | none =>
      have hNull := value_eq_null hLiteral
      rw [follow_null hNull]
      exact Outcome.nullValue hTrail hLength hNull
  | some l =>
      rw [follow_literal hReference hLiteral]
      exact Outcome.literal hTrail hLength hReference hLiteral

/- Following on from the end of a trail gives its outcome. -/
theorem outcome_follow
    (remaining : Nat)
    {hops : List Hop}
    (hTrail : store.Trail start hops stop)
    (hLength : hops.length + remaining = limit) :
    store.Outcome limit start
      (store.follow limit remaining hops stop.value stop.scope) := by
  induction remaining generalizing hops stop with
  | zero =>
      cases hReference : stop.reference? with
      | none =>
          exact outcome_follow_value hTrail (by omega) hReference
      | some r =>
          rw [follow_zero hReference]
          exact Outcome.depthExceeded hTrail (by omega) hReference
  | succ remaining ih =>
      cases hReference : stop.reference? with
      | none =>
          exact outcome_follow_value hTrail (by omega) hReference
      | some r =>
          rcases store.defect_or_hops hReference with
            ⟨e, hDefect⟩ | ⟨l, q, hHop⟩
          · rw [follow_defect hReference hDefect]
            exact
              Outcome.defect hTrail (by omega) hReference hDefect
          · by_cases hMem : l ∈ hops.map Hop.location
            · rw [follow_revisit hHop hMem]
              cases hHop with
              | intro _ hLands _ =>
                  exact
                    Outcome.cycle hTrail (by omega) hReference
                      hLands hMem
            · rw [follow_hop hHop hMem]
              apply ih (hTrail.snoc hHop hMem)
              rw [List.length_append, List.length_singleton]
              omega

/- Resolving gives an outcome of the value. -/
theorem outcome_resolve
    (store : Store)
    (limit : Nat)
    (raw : Json)
    (scope : Scope) :
    store.Outcome limit ⟨raw, scope⟩
      (store.resolve limit raw scope) :=
  outcome_follow limit (Trail.nil store ⟨raw, scope⟩) (by simp)

/- A reported cycle is a trail and a hop back to it. -/
theorem exists_trail_of_cycle
    {raw : Json}
    {scope : Scope}
    {chain : List Hop}
    (hCycle :
      store.resolve limit raw scope = .error (.cycle chain)) :
    ∃ trail last p q,
      chain = trail ++ [last]
        ∧ store.Trail ⟨raw, scope⟩ trail p
        ∧ store.Hops p last q
        ∧ trail.length < limit
        ∧ last.location ∈ trail.map Hop.location := by
  have hOutcome := store.outcome_resolve limit raw scope
  rw [hCycle] at hOutcome
  cases hOutcome with
  | defect _ _ _ hDefect => cases hDefect
  | cycle hTrail hLength hReference hLands hMem =>
      rcases hTrail.chain.exists_hop_of_lands hReference hLands hMem
        with ⟨q, hHop⟩
      exact ⟨_, _, _, q, rfl, hTrail, hHop, hLength, hMem⟩

end Store

end DesignTokens

------------------------------------------------------------
-- Completeness
------------------------------------------------------------

namespace DesignTokens

namespace Store

variable {store : Store}
variable {limit : Nat}
variable {start p stop : Position}

/- Following goes along a chain that lands at new locations. -/
theorem follow_chain
    {before hops : List Hop}
    (remaining : Nat)
    (hChain : store.Chain p hops stop)
    (hDistinct : ((before ++ hops).map Hop.location).Nodup) :
    store.follow limit (hops.length + remaining) before
        p.value p.scope =
      store.follow limit remaining (before ++ hops)
        stop.value stop.scope := by
  induction hChain generalizing before with
  | nil p => simp
  | @cons p q stop hop hops hHop _ ih =>
      have hAppend : before ++ hop :: hops = (before ++ [hop]) ++ hops := by
        simp
      have hNew : hop.location ∉ before.map Hop.location := by
        rw [List.map_append, List.nodup_append'] at hDistinct
        intro hMem
        exact hDistinct.2.2 hMem (by simp)
      rw [List.length_cons, Nat.add_right_comm, follow_hop hHop hNew,
        hAppend]
      rw [hAppend] at hDistinct
      exact ih hDistinct

/- Resolving goes along a trail within the limit. -/
theorem Trail.resolve_eq_follow
    {hops : List Hop}
    (hTrail : store.Trail start hops stop)
    (hLength : hops.length ≤ limit) :
    store.resolve limit start.value start.scope =
      store.follow limit (limit - hops.length) hops
        stop.value stop.scope := by
  have hFollow :
      store.follow limit (hops.length + (limit - hops.length)) []
          start.value start.scope =
        store.follow limit (limit - hops.length) hops
          stop.value stop.scope :=
    follow_chain _ hTrail.chain hTrail.distinct
  rw [Nat.add_sub_cancel' hLength] at hFollow
  exact hFollow

/- An outcome of a value is what resolving it gives. -/
theorem Outcome.resolve_eq
    {result : Except ResolveError Literal}
    (hOutcome : store.Outcome limit start result) :
    store.resolve limit start.value start.scope = result := by
  cases hOutcome with
  | literal hTrail hLength hReference hLiteral =>
      rw [hTrail.resolve_eq_follow hLength,
        follow_literal hReference hLiteral]
  | nullValue hTrail hLength hNull =>
      rw [hTrail.resolve_eq_follow hLength, follow_null hNull]
  | depthExceeded hTrail hLength hReference =>
      rw [hTrail.resolve_eq_follow hLength.le, hLength, Nat.sub_self,
        follow_zero hReference]
  | defect hTrail hLength hReference hDefect =>
      rw [hTrail.resolve_eq_follow hLength.le,
        ← Nat.succ_pred_eq_of_pos (Nat.sub_pos_of_lt hLength),
        follow_defect hReference hDefect]
  | cycle hTrail hLength hReference hLands hMem =>
      rcases hTrail.chain.exists_hop_of_lands hReference hLands hMem
        with ⟨q, hHop⟩
      rw [hTrail.resolve_eq_follow hLength.le,
        ← Nat.succ_pred_eq_of_pos (Nat.sub_pos_of_lt hLength),
        follow_revisit hHop hMem]

/- A value resolves to the literal that its trail ends at. -/
theorem resolve_eq_ok_iff
    {raw : Json}
    {scope : Scope}
    {l : Literal} :
    store.resolve limit raw scope = .ok l ↔
      ∃ hops stop,
        store.Trail ⟨raw, scope⟩ hops stop
          ∧ hops.length ≤ limit
          ∧ stop.reference? = none
          ∧ Literal.ofJson? stop.value = some l := by
  constructor
  · intro hResolve
    have hOutcome := store.outcome_resolve limit raw scope
    rw [hResolve] at hOutcome
    cases hOutcome with
    | literal hTrail hLength hReference hLiteral =>
        exact ⟨_, _, hTrail, hLength, hReference, hLiteral⟩
  · rintro ⟨hops, stop, hTrail, hLength, hReference, hLiteral⟩
    exact
      (Outcome.literal hTrail hLength hReference hLiteral).resolve_eq

/-
  Resolving agrees with the meaning of chains: it gives a result
  exactly when that is the outcome of the value.
-/
theorem resolve_eq_iff_outcome
    (store : Store)
    (limit : Nat)
    (raw : Json)
    (scope : Scope)
    (result : Except ResolveError Literal) :
    store.resolve limit raw scope = result ↔
      store.Outcome limit ⟨raw, scope⟩ result := by
  constructor
  · rintro rfl
    exact store.outcome_resolve limit raw scope
  · exact Outcome.resolve_eq

end Store

end DesignTokens
