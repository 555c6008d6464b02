import DesignTokens.Proofs.Json.Reordering
import DesignTokens.Reference.Resolution

/-
  This file proves that resolving a value does not depend on the
  order of keys in the trees of a store.

  Key definitions include:
    * `Store.Reordered`
    * `Landing.Matches`

  Key theorems include:
    * `Store.locate?_rel`
    * `Store.step_agree`
    * `Store.follow_agree`

  Two stores whose trees are equal as unordered JSON hold equal
  nodes at every location.  So each hop lands at one location in
  both of them and goes on from equal values, and chains come to
  the same end.
-/

------------------------------------------------------------
-- Single Hops
------------------------------------------------------------

namespace DesignTokens

/- Landings at one place, to go on from equal values. -/
structure Landing.Matches (landing landing' : Landing) : Prop where
  location : landing.location = landing'.location
  value : landing.value.Reordered landing'.value
  scope : landing.scope = landing'.scope

namespace Store

/- The trees of two stores are equal as unordered JSON. -/
def Reordered (store store' : Store) : Prop :=
  ∀ c, (store.tree c).Reordered (store'.tree c)

variable {store store' : Store}

theorem Reordered.tree_matches
    (hStores : store.Reordered store')
    (c : Collection) :
    (store.tree c).Matches (store'.tree c) :=
  ⟨hStores c, (store'.documents.get c).uniqueKeys⟩

/- A search through related candidates finds related things. -/
theorem findSome?_rel
    {α β γ : Type}
    {related : β → γ → Prop}
    {f : α → Option β}
    {g : α → Option γ}
    (hRelated : ∀ a, Option.Rel related (f a) (g a))
    (candidates : List α) :
    Option.Rel related
      (candidates.findSome? f) (candidates.findSome? g) := by
  induction candidates with
  | nil => exact Option.Rel.none
  | cons a rest ih =>
      have hFirst := hRelated a
      rw [List.findSome?_cons, List.findSome?_cons]
      generalize f a = found, g a = found' at hFirst ⊢
      cases hFirst with
      | none => exact ih
      | some hFound => exact Option.Rel.some hFound

/- A reference means one location, and equal nodes there. -/
theorem locate?_rel
    (hStores : store.Reordered store')
    (r : Reference)
    (scope : Scope) :
    Option.Rel (fun found found' =>
        found.1 = found'.1 ∧ found.2.Matches found'.2)
      (store.locate? r scope) (store'.locate? r scope) := by
  apply findSome?_rel
  intro l
  have hNode := (hStores.tree_matches l.collection).descend? l.path
  unfold node?
  generalize (store.tree l.collection).descend? l.path = node,
    (store'.tree l.collection).descend? l.path = node' at hNode ⊢
  cases hNode with
  | none => exact Option.Rel.none
  | some hMatch => exact Option.Rel.some ⟨rfl, hMatch⟩

/- Equal nodes are entered alike. -/
theorem enter_agree
    {node node' : Json}
    (hMatch : node.Matches node')
    (r : Reference)
    (hint : Option Collection) :
    Agree (fun next next' =>
        next.1.Reordered next'.1 ∧ next.2 = next'.2)
      (enter r hint node) (enter r hint node') := by
  simp only [enter, Record.isRecord_iff hMatch, hMatch.isObject_iff]
  split
  · have hRecord := Record.ofJson_agree hMatch
    generalize Record.ofJson node = result,
      Record.ofJson node' = result' at hRecord ⊢
    cases hRecord with
    | error e => exact Agree.error _
    | ok hMatch =>
        refine Agree.ok ⟨hMatch.value, ?_⟩
        rw [hMatch.hint]
  · split
    · exact Agree.error _
    · exact Agree.ok ⟨hMatch.reordered, rfl⟩

/- A reference is followed alike. -/
theorem step_agree
    (hStores : store.Reordered store')
    (r : Reference)
    (scope : Scope) :
    Agree Landing.Matches (store.step r scope) (store'.step r scope) := by
  have hFound := locate?_rel hStores r scope
  unfold step
  generalize store.locate? r scope = found,
    store'.locate? r scope = found' at hFound ⊢
  cases hFound with
  | none => exact Agree.error _
  | @some found found' hFound =>
      obtain ⟨l, node⟩ := found
      obtain ⟨l', node'⟩ := found'
      rcases hFound with ⟨rfl, hMatch⟩
      have hNext := enter_agree hMatch r scope.hint
      dsimp only
      generalize enter r scope.hint node = next,
        enter r scope.hint node' = next' at hNext ⊢
      cases hNext with
      | error e => exact Agree.error e
      | @ok next next' hNext =>
          obtain ⟨value, hint⟩ := next
          obtain ⟨value', hint'⟩ := next'
          rcases hNext with ⟨hValue, rfl⟩
          exact Agree.ok ⟨rfl, hValue, rfl⟩

end Store

end DesignTokens

------------------------------------------------------------
-- Chains
------------------------------------------------------------

namespace DesignTokens

/- Equal values are one reference, or none. -/
theorem Reference.ofJson?_eq
    {raw raw' : Json}
    (hRaw : raw.Reordered raw') :
    ofJson? raw = ofJson? raw' :=
  hRaw.congr (fun _ _ => rfl) fun _ _ => rfl

namespace Store

variable {store store' : Store}

/- Equal values end a chain alike. -/
theorem literal_agree
    {raw raw' : Json}
    (hRaw : raw.Reordered raw') :
    Agree (fun l l' => l.toJson.Reordered l'.toJson)
      (match Literal.ofJson? raw with
        | none => .error ResolveError.nullValue
        | some l => .ok l)
      (match Literal.ofJson? raw' with
        | none => .error ResolveError.nullValue
        | some l => .ok l) := by
  have hLiteral := Literal.ofJson?_rel hRaw
  generalize Literal.ofJson? raw = literal,
    Literal.ofJson? raw' = literal' at hLiteral ⊢
  cases hLiteral with
  | none => exact Agree.error _
  | some hReordered => exact Agree.ok hReordered

/- Chains from equal values come to the same end. -/
theorem follow_agree
    (hStores : store.Reordered store')
    (limit : Nat)
    {raw raw' : Json}
    (hRaw : raw.Reordered raw')
    (remaining : Nat)
    (trail : List Hop)
    (scope : Scope) :
    Agree (fun l l' => l.toJson.Reordered l'.toJson)
      (store.follow limit remaining trail raw scope)
      (store'.follow limit remaining trail raw' scope) := by
  induction remaining generalizing raw raw' trail scope with
  | zero =>
      rw [follow, follow, Reference.ofJson?_eq hRaw]
      cases Reference.ofJson? raw' with
      | none => exact literal_agree hRaw
      | some r => exact Agree.error _
  | succ remaining ih =>
      rw [follow, follow, Reference.ofJson?_eq hRaw]
      cases Reference.ofJson? raw' with
      | none => exact literal_agree hRaw
      | some r =>
          have hStep := step_agree hStores r scope
          dsimp only
          generalize store.step r scope = result,
            store'.step r scope = result' at hStep ⊢
          cases hStep with
          | error e => exact Agree.error e
          | ok hLanding =>
              dsimp only
              rw [hLanding.location, hLanding.scope]
              split
              · exact Agree.error _
              · exact ih hLanding.value _ _

/- Equal values resolve to equal literals or to one error. -/
theorem resolve_agree
    (hStores : store.Reordered store')
    (limit : Nat)
    {raw raw' : Json}
    (hRaw : raw.Reordered raw')
    (scope : Scope) :
    Agree (fun l l' => l.toJson.Reordered l'.toJson)
      (store.resolve limit raw scope)
      (store'.resolve limit raw' scope) :=
  follow_agree hStores limit hRaw limit [] scope

end Store

end DesignTokens
