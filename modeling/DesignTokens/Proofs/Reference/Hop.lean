import DesignTokens.Reference.Resolution
import Mathlib.Data.List.Basic

/-
  This file states what a single hop along a reference does.

  Key definitions include:
    * `Position`
    * `Store.Lands`
    * `Store.Continues`
    * `Store.Hops`
    * `Store.Defect`

  Key theorems include:
    * `Store.locate?_eq_some_iff`
    * `Store.locate?_eq_none_iff`
    * `Store.Lands.unique`
    * `Store.hops_iff_step`
    * `Store.step_eq_error_iff`

  A hop goes to the first layer of the search that holds a
  reading of the path, and there to the dotted reading before
  the hyphenated one.  It goes on from the node it lands at, or
  it fails for one of three defects.
-/

------------------------------------------------------------
-- Positions
------------------------------------------------------------

namespace DesignTokens

/- A value on the way, with the scope of its references. -/
structure Position where
  value : Json
  scope : Scope

/- The reference that stands at a position, if there is one. -/
def Position.reference? (p : Position) : Option Reference :=
  Reference.ofJson? p.value

end DesignTokens

------------------------------------------------------------
-- Landing
------------------------------------------------------------

namespace DesignTokens

namespace Store

/- No reading of a reference leads to a node of a layer. -/
def Misses
    (store : Store)
    (r : Reference)
    (c : Collection) : Prop :=
  store.node? ⟨c, r.dottedReading⟩ = none
    ∧ store.node? ⟨c, r.hyphenatedReading⟩ = none

/-
  What a reference means in one layer: the node at its dotted
  reading or, failing that, at its hyphenated reading.
-/
inductive Means
    (store : Store)
    (r : Reference)
    (c : Collection) : Location → Json → Prop
| dotted {node : Json} :
    store.node? ⟨c, r.dottedReading⟩ = some node →
      store.Means r c ⟨c, r.dottedReading⟩ node
| hyphenated {node : Json} :
    store.node? ⟨c, r.dottedReading⟩ = none →
      store.node? ⟨c, r.hyphenatedReading⟩ = some node →
        store.Means r c ⟨c, r.hyphenatedReading⟩ node

/-
  A reference lands at the node that it means in the first layer
  of the search order where it means one.
-/
def Lands
    (store : Store)
    (r : Reference)
    (scope : Scope)
    (l : Location)
    (node : Json) : Prop :=
  ∃ c before after,
    scope.searchOrder = before ++ c :: after
      ∧ (∀ d ∈ before, store.Misses r d)
      ∧ store.Means r c l node

/- The search in one layer, reading by reading. -/
def meaning?
    (store : Store)
    (r : Reference)
    (c : Collection) : Option (Location × Json) :=
  (r.readings.map fun path => Location.mk c path).findSome?
    fun l => (store.node? l).map fun node => (l, node)

theorem meaning?_eq
    (store : Store)
    (r : Reference)
    (c : Collection) :
    store.meaning? r c =
      ((store.node? ⟨c, r.dottedReading⟩).map fun node =>
          (⟨c, r.dottedReading⟩, node)).or
        ((store.node? ⟨c, r.hyphenatedReading⟩).map fun node =>
          (⟨c, r.hyphenatedReading⟩, node)) := by
  unfold meaning? Reference.readings
  by_cases hSame : r.hyphenatedReading = r.dottedReading
  · cases hNode : store.node? ⟨c, r.dottedReading⟩ <;>
      simp [hSame, hNode]
  · cases hNode : store.node? ⟨c, r.dottedReading⟩ <;>
      simp [hSame, hNode]

theorem meaning?_eq_some_iff
    (store : Store)
    (r : Reference)
    (c : Collection)
    (l : Location)
    (node : Json) :
    store.meaning? r c = some (l, node) ↔
      store.Means r c l node := by
  rw [meaning?_eq]
  constructor
  · intro hFound
    cases hDotted : store.node? ⟨c, r.dottedReading⟩ with
    | some found =>
        simp only [hDotted, Option.map_some, Option.some_or,
          Option.some.injEq, Prod.mk.injEq] at hFound
        rcases hFound with ⟨rfl, rfl⟩
        exact Means.dotted hDotted
    | none =>
        simp only [hDotted, Option.map_none, Option.none_or,
          Option.map_eq_some_iff, Prod.mk.injEq] at hFound
        rcases hFound with ⟨found, hHyphenated, rfl, rfl⟩
        exact Means.hyphenated hDotted hHyphenated
  · intro hMeans
    cases hMeans with
    | dotted hDotted => simp [hDotted]
    | hyphenated hDotted hHyphenated =>
        simp [hDotted, hHyphenated]

theorem meaning?_eq_none_iff
    (store : Store)
    (r : Reference)
    (c : Collection) :
    store.meaning? r c = none ↔ store.Misses r c := by
  simp [meaning?_eq, Misses]

/- The search goes through the layers in turn. -/
theorem locate?_eq_findSome?
    (store : Store)
    (r : Reference)
    (scope : Scope) :
    store.locate? r scope =
      scope.searchOrder.findSome? (store.meaning? r) := by
  unfold locate? candidates
  rw [← List.head?_filterMap, List.filterMap_flatMap,
    List.head?_flatMap]
  simp only [List.head?_filterMap]
  rfl

/- Locating a reference finds where it lands. -/
theorem locate?_eq_some_iff
    (store : Store)
    (r : Reference)
    (scope : Scope)
    (l : Location)
    (node : Json) :
    store.locate? r scope = some (l, node) ↔
      store.Lands r scope l node := by
  rw [locate?_eq_findSome?, List.findSome?_eq_some_iff]
  simp only [meaning?_eq_some_iff, meaning?_eq_none_iff]
  constructor
  · intro hFirst
    rcases hFirst with ⟨before, c, after, hOrder, hMeans, hBefore⟩
    exact ⟨c, before, after, hOrder, hBefore, hMeans⟩
  · intro hLands
    rcases hLands with ⟨c, before, after, hOrder, hBefore, hMeans⟩
    exact ⟨before, c, after, hOrder, hMeans, hBefore⟩

/- Locating a reference fails when every layer misses it. -/
theorem locate?_eq_none_iff
    (store : Store)
    (r : Reference)
    (scope : Scope) :
    store.locate? r scope = none ↔
      ∀ c ∈ scope.searchOrder, store.Misses r c := by
  rw [locate?_eq_findSome?, List.findSome?_eq_none_iff]
  simp only [meaning?_eq_none_iff]

/- A reference means nodes of the layer that it is looked up in. -/
theorem Means.collection_eq
    {store : Store}
    {r : Reference}
    {c : Collection}
    {l : Location}
    {node : Json}
    (hMeans : store.Means r c l node) :
    l.collection = c := by
  cases hMeans <;> rfl

/- The node that a reference lands at is there. -/
theorem Means.node?_eq
    {store : Store}
    {r : Reference}
    {c : Collection}
    {l : Location}
    {node : Json}
    (hMeans : store.Means r c l node) :
    store.node? l = some node := by
  cases hMeans with
  | dotted hDotted => exact hDotted
  | hyphenated _ hHyphenated => exact hHyphenated

theorem Lands.node?_eq
    {store : Store}
    {r : Reference}
    {scope : Scope}
    {l : Location}
    {node : Json}
    (hLands : store.Lands r scope l node) :
    store.node? l = some node := by
  rcases hLands with ⟨c, before, after, -, -, hMeans⟩
  exact hMeans.node?_eq

/- A reference means one node of a layer at most. -/
theorem Means.unique
    {store : Store}
    {r : Reference}
    {c : Collection}
    {l l' : Location}
    {node node' : Json}
    (hMeans : store.Means r c l node)
    (hMeans' : store.Means r c l' node') :
    l = l' ∧ node = node' := by
  rw [← meaning?_eq_some_iff] at hMeans hMeans'
  rw [hMeans] at hMeans'
  cases hMeans'
  exact ⟨rfl, rfl⟩

/- It lands at one node of a scope at most. -/
theorem Lands.unique
    {store : Store}
    {r : Reference}
    {scope : Scope}
    {l l' : Location}
    {node node' : Json}
    (hLands : store.Lands r scope l node)
    (hLands' : store.Lands r scope l' node') :
    l = l' ∧ node = node' := by
  rw [← locate?_eq_some_iff] at hLands hLands'
  rw [hLands] at hLands'
  cases hLands'
  exact ⟨rfl, rfl⟩

end Store

end DesignTokens

------------------------------------------------------------
-- Going On
------------------------------------------------------------

namespace DesignTokens

namespace Record

/- What can be read as a record has its value. -/
theorem get?_valueKey_of_ofJson
    {node : Json}
    {record : Record}
    (hRecord : ofJson node = .ok record) :
    node.get? valueKey = some record.value := by
  cases node with
  | object ms =>
      rw [ofJson] at hRecord
      cases hValue : (Json.object ms).get? valueKey with
      | none => simp [hValue] at hRecord
      | some value =>
          simp only [hValue] at hRecord
          split at hRecord
          · simp at hRecord
          · split at hRecord
            · simp at hRecord
            · cases hRecord
              rfl
  | _ => simp [ofJson] at hRecord

theorem isRecord_of_ofJson
    {node : Json}
    {record : Record}
    (hRecord : ofJson node = .ok record) :
    IsRecord node := by
  rw [IsRecord, get?_valueKey_of_ofJson hRecord]
  rfl

end Record

namespace Store

/-
  What a chain goes on with from a node, under the hint in
  force.  A readable record goes on with its value, under its
  own hint if it has one; any node but an object goes on with
  itself.
-/
inductive Continues
    (node : Json)
    (hint : Option Collection) :
    Json → Option Collection → Prop
| record {record : Record} {value : Json} :
    Record.ofJson node = .ok record →
      node.get? Record.valueKey = some value →
        Continues node hint value (record.hint.or hint)
| plain :
    ¬ node.IsObject →
      Continues node hint node hint

/- Entering a node succeeds when the chain can go on from it. -/
theorem enter_eq_ok_iff
    (r : Reference)
    (hint hint' : Option Collection)
    (node value : Json) :
    enter r hint node = .ok (value, hint') ↔
      Continues node hint value hint' := by
  unfold enter
  constructor
  · intro hEnter
    split at hEnter
    · next hIs =>
        split at hEnter
        · simp at hEnter
        · next record hRecord =>
            cases hEnter
            exact
              Continues.record hRecord
                (Record.get?_valueKey_of_ofJson hRecord)
    · split at hEnter
      · simp at hEnter
      · next hObject =>
          cases hEnter
          exact Continues.plain hObject
  · intro hContinues
    cases hContinues with
    | @record record _ hRecord hValue =>
        rw [Record.get?_valueKey_of_ofJson hRecord] at hValue
        cases hValue
        rw [if_pos (Record.isRecord_of_ofJson hRecord), hRecord]
    | plain hObject =>
        have hIs : ¬ Record.IsRecord node := fun hIs =>
          hObject (Record.isObject_of_isRecord hIs)
        rw [if_neg hIs, if_neg hObject]

/- Entering a node fails at namespaces and unreadable records. -/
theorem enter_eq_error_iff
    (r : Reference)
    (hint : Option Collection)
    (node : Json)
    (e : ResolveError) :
    enter r hint node = .error e ↔
      (node.IsObject ∧ ¬ Record.IsRecord node ∧ e = .notAToken r) ∨
        ∃ cause,
          Record.IsRecord node ∧ Record.ofJson node = .error cause ∧
            e = .malformedTarget r cause := by
  unfold enter
  by_cases hIs : Record.IsRecord node
  · rw [if_pos hIs]
    cases hRecord : Record.ofJson node with
    | error cause => simp [hIs, eq_comm]
    | ok record => simp [hIs]
  · by_cases hObject : node.IsObject
    · simp [hIs, hObject, eq_comm]
    · simp [hIs, hObject]

/- Whether a chain can go on does not depend on the hint. -/
theorem Continues.exists_of_hint
    {node value : Json}
    {hint hint' : Option Collection}
    (hContinues : Continues node hint value hint')
    (other : Option Collection) :
    ∃ other', Continues node other value other' := by
  cases hContinues with
  | record hRecord hValue =>
      exact ⟨_, Continues.record hRecord hValue⟩
  | plain hObject => exact ⟨_, Continues.plain hObject⟩

end Store

end DesignTokens

------------------------------------------------------------
-- Hops
------------------------------------------------------------

namespace DesignTokens

namespace Store

/- One hop, from the reference at a position to the next one. -/
inductive Hops
    (store : Store)
    (p : Position) : Hop → Position → Prop
| intro
    {r : Reference}
    {l : Location}
    {node value : Json}
    {hint : Option Collection} :
    p.reference? = some r →
      store.Lands r p.scope l node →
        Continues node p.scope.hint value hint →
          store.Hops p ⟨r, l⟩ ⟨value, ⟨l.collection, hint⟩⟩

/- Why there is no hop from a reference. -/
inductive Defect
    (store : Store)
    (r : Reference)
    (scope : Scope) : ResolveError → Prop
| notFound :
    (∀ c ∈ scope.searchOrder, store.Misses r c) →
      store.Defect r scope (.notFound r scope.searchOrder)
| notAToken {l : Location} {node : Json} :
    store.Lands r scope l node →
      node.IsObject →
        ¬ Record.IsRecord node →
          store.Defect r scope (.notAToken r)
| malformedTarget
    {l : Location} {node : Json} {cause : RecordError} :
    store.Lands r scope l node →
      Record.IsRecord node →
        Record.ofJson node = .error cause →
          store.Defect r scope (.malformedTarget r cause)

/- A step goes from where a reference lands to what it enters. -/
theorem step_eq_ok_iff
    (store : Store)
    (r : Reference)
    (scope : Scope)
    (landing : Landing) :
    store.step r scope = .ok landing ↔
      ∃ node hint,
        store.Lands r scope landing.location node ∧
          Continues node scope.hint landing.value hint ∧
            landing.scope = ⟨landing.location.collection, hint⟩ := by
  unfold step
  constructor
  · intro hStep
    cases hLocate : store.locate? r scope with
    | none => simp [hLocate] at hStep
    | some found =>
        obtain ⟨l, node⟩ := found
        simp only [hLocate] at hStep
        cases hEnter : enter r scope.hint node with
        | error e => simp [hEnter] at hStep
        | ok entered =>
            obtain ⟨value, hint⟩ := entered
            simp only [hEnter] at hStep
            cases hStep
            exact
              ⟨node, hint, (store.locate?_eq_some_iff ..).mp hLocate,
                (enter_eq_ok_iff ..).mp hEnter, rfl⟩
  · intro hLanding
    rcases hLanding with ⟨node, hint, hLands, hContinues, hScope⟩
    have hLocate := (store.locate?_eq_some_iff ..).mpr hLands
    have hEnter := (enter_eq_ok_iff r ..).mpr hContinues
    obtain ⟨l, value, landed⟩ := landing
    simp only at hLocate hEnter hScope
    simp only [hLocate, hEnter, hScope]

/- A step fails for one of the defects. -/
theorem step_eq_error_iff
    (store : Store)
    (r : Reference)
    (scope : Scope)
    (e : ResolveError) :
    store.step r scope = .error e ↔ store.Defect r scope e := by
  unfold step
  constructor
  · intro hStep
    cases hLocate : store.locate? r scope with
    | none =>
        simp only [hLocate] at hStep
        cases hStep
        exact
          Defect.notFound ((store.locate?_eq_none_iff ..).mp hLocate)
    | some found =>
        obtain ⟨l, node⟩ := found
        have hLands := (store.locate?_eq_some_iff ..).mp hLocate
        simp only [hLocate] at hStep
        cases hEnter : enter r scope.hint node with
        | ok entered => simp [hEnter] at hStep
        | error e' =>
            simp only [hEnter] at hStep
            cases hStep
            rcases (enter_eq_error_iff ..).mp hEnter with
              ⟨hObject, hIs, rfl⟩ | ⟨cause, hIs, hRecord, rfl⟩
            · exact Defect.notAToken hLands hObject hIs
            · exact Defect.malformedTarget hLands hIs hRecord
  · intro hDefect
    cases hDefect with
    | notFound hMisses =>
        rw [(store.locate?_eq_none_iff ..).mpr hMisses]
    | notAToken hLands hObject hIs =>
        have hEnter :=
          (enter_eq_error_iff r scope.hint ..).mpr
            (Or.inl ⟨hObject, hIs, rfl⟩)
        simp only [(store.locate?_eq_some_iff ..).mpr hLands, hEnter]
    | malformedTarget hLands hIs hRecord =>
        have hEnter :=
          (enter_eq_error_iff r scope.hint ..).mpr
            (Or.inr ⟨_, hIs, hRecord, rfl⟩)
        simp only [(store.locate?_eq_some_iff ..).mpr hLands, hEnter]

/- The hops from a position are the steps of its reference. -/
theorem hops_iff_step
    (store : Store)
    (p q : Position)
    (hop : Hop) :
    store.Hops p hop q ↔
      p.reference? = some hop.reference ∧
        store.step hop.reference p.scope =
          .ok ⟨hop.location, q.value, q.scope⟩ := by
  rw [step_eq_ok_iff]
  constructor
  · intro hHops
    cases hHops with
    | intro hReference hLands hContinues =>
        exact ⟨hReference, _, _, hLands, hContinues, rfl⟩
  · intro hStep
    rcases hStep with
      ⟨hReference, node, hint, hLands, hContinues, hScope⟩
    obtain ⟨value, scope⟩ := q
    simp only at hLands hContinues hScope
    subst hScope
    exact Hops.intro hReference hLands hContinues

/- There is at most one hop from a position. -/
theorem Hops.unique
    {store : Store}
    {p q q' : Position}
    {hop hop' : Hop}
    (hHops : store.Hops p hop q)
    (hHops' : store.Hops p hop' q') :
    hop = hop' ∧ q = q' := by
  obtain ⟨r, l⟩ := hop
  obtain ⟨r', l'⟩ := hop'
  obtain ⟨value, scope⟩ := q
  obtain ⟨value', scope'⟩ := q'
  rw [hops_iff_step] at hHops hHops'
  rcases hHops with ⟨hReference, hStep⟩
  rcases hHops' with ⟨hReference', hStep'⟩
  rw [hReference] at hReference'
  cases hReference'
  rw [hStep] at hStep'
  cases hStep'
  exact ⟨rfl, rfl⟩

end Store

end DesignTokens
