import DesignTokens.Emission.Leaf
import DesignTokens.Proofs.Json.Reordering

/-
  This file restates the reserved members of a document, and
  tells what lookups, records and the walk make of it.

  Key definitions include:
    * `MetadataRule`
    * `MetadataRule.Keeps`
    * `Json.restate`
    * `Record.gist`

  Key theorems include:
    * `Json.get?_restate`
    * `Json.descend?_restate`
    * `Json.leaves_restate`
    * `Record.ofJson_restate`

  A rule says what becomes of each reserved member.  Restating
  goes where paths of keys go, so it leaves alone what stands
  inside a reserved member or an array.  Two values are equal
  but for some metadata when a rule that drops it makes them
  equal.
-/

------------------------------------------------------------
-- Rules
------------------------------------------------------------

namespace DesignTokens

/-
  What becomes of a reserved member under a key: the value that
  it has from now on, unless it is dropped.
-/
def MetadataRule : Type :=
  String → Json → Option Json

namespace MetadataRule

/- Values, types and hints stay, and all the rest is dropped. -/
def essential : MetadataRule
| key, j =>
    if key = Record.valueKey ∨ key = Record.typeKey
        ∨ key = Record.collectionKey then
      some j
    else
      none

/- Besides, all types that are strings become one string. -/
def untyped : MetadataRule
| key, j =>
    if key = Record.typeKey ∧ j.kind = .string then
      some (.text "")
    else
      essential key j

/-
  A rule keeps the values and the hints of records, and of their
  types what a reading makes of them.
-/
structure Keeps
    {α : Type}
    (rule : MetadataRule)
    (reading : TokenType → α) : Prop where
  value : ∀ j, rule Record.valueKey j = some j
  hint : ∀ j, rule Record.collectionKey j = some j
  type :
    ∀ j, ∃ j',
      rule Record.typeKey j = some j'
        ∧ (Record.readType (some j')).map reading =
            (Record.readType (some j)).map reading

theorem essential_keeps : essential.Keeps id where
  value _ := rfl
  hint _ := rfl
  type j := ⟨j, rfl, rfl⟩

theorem untyped_keeps : untyped.Keeps fun _ => () where
  value _ := rfl
  hint _ := rfl
  type j := by
    cases j with
    | text name => exact ⟨.text "", rfl, rfl⟩
    | _ => exact ⟨_, rfl, rfl⟩

end MetadataRule

end DesignTokens

------------------------------------------------------------
-- Restating a Document
------------------------------------------------------------

namespace DesignTokens

namespace Json

mutual

/-
  Apply a rule to the reserved members of every object that a
  path of keys leads to.
-/
def restate
    (rule : MetadataRule) :
    Json → Json
| object ms => object (restateMembers rule ms)
| null => null
| boolean b => boolean b
| number x => number x
| text s => text s
| array items => array items

/- Apply a rule to members and below those that are not reserved. -/
def restateMembers
    (rule : MetadataRule) :
    List (String × Json) → List (String × Json)
| [] => []
| (key, j) :: ms =>
    ((if IsReserved key then rule key j else some (restate rule j)).map
        fun j' => (key, j')).toList
      ++ restateMembers rule ms

end

example :
    restate .essential
        (object [
          ("$note", null),
          ("a", object [("$value", null), ("$description", null)])]) =
      object [("a", object [("$value", null)])] :=
  rfl

/- What becomes of the member under a key. -/
def restateAt
    (rule : MetadataRule)
    (key : String)
    (j : Json) : Option Json :=
  if IsReserved key then rule key j else some (restate rule j)

variable {α : Type}
variable {rule : MetadataRule}
variable {reading : TokenType → α}
variable {key : String}

theorem restateAt_of_not_isReserved
    (hPlain : ¬ IsReserved key)
    (j : Json) :
    restateAt rule key j = some (restate rule j) :=
  if_neg hPlain

theorem restateMembers_cons
    (key : String)
    (j : Json)
    (ms : List (String × Json)) :
    restateMembers rule ((key, j) :: ms) =
      ((restateAt rule key j).map fun j' => (key, j')).toList
        ++ restateMembers rule ms := by
  rw [restateMembers, restateAt]

/- The members are those that a rule does not drop. -/
theorem mem_restateMembers_iff
    {j' : Json}
    (ms : List (String × Json)) :
    (key, j') ∈ restateMembers rule ms ↔
      ∃ j, (key, j) ∈ ms ∧ restateAt rule key j = some j' := by
  induction ms with
  | nil => simp [restateMembers]
  | cons m ms ih =>
      rcases m with ⟨k, j⟩
      rw [restateMembers_cons, List.mem_append, ih]
      simp only [Option.mem_toList, Option.map_eq_some_iff,
        Prod.mk.injEq, List.mem_cons]
      constructor
      · intro hMember
        rcases hMember with ⟨_, hRest, rfl, rfl⟩ | ⟨i, hMem, hRest⟩
        · exact ⟨j, Or.inl ⟨rfl, rfl⟩, hRest⟩
        · exact ⟨i, Or.inr hMem, hRest⟩
      · intro hMember
        rcases hMember with ⟨i, ⟨rfl, rfl⟩ | hMem, hRest⟩
        · exact Or.inl ⟨j', hRest, rfl, rfl⟩
        · exact Or.inr ⟨i, hMem, hRest⟩

/- A key that is never dropped is looked up as before. -/
theorem lookup_restateMembers
    {f : Json → Json}
    (hKept : ∀ j, restateAt rule key j = some (f j))
    (ms : List (String × Json)) :
    (restateMembers rule ms).lookup key = (ms.lookup key).map f := by
  induction ms with
  | nil => rfl
  | cons m ms ih =>
      rcases m with ⟨k, j⟩
      rw [restateMembers_cons, List.lookup_append, ih]
      by_cases hKey : key = k
      · subst hKey
        simp [hKept]
      · have hOther : (key == k) = false := by simp [hKey]
        cases restateAt rule k j <;>
          simp [List.lookup_cons, hOther]

theorem get?_restate
    {f : Json → Json}
    (hKept : ∀ j, restateAt rule key j = some (f j))
    (j : Json) :
    (j.restate rule).get? key = (j.get? key).map f := by
  cases j with
  | object ms => exact lookup_restateMembers hKept ms
  | _ => rfl

theorem get?_restate_of_isReserved
    {f : Json → Json}
    (hReserved : IsReserved key)
    (hKept : ∀ j, rule key j = some (f j))
    (j : Json) :
    (j.restate rule).get? key = (j.get? key).map f := by
  apply get?_restate
  intro j
  rw [restateAt, if_pos hReserved, hKept]

/- Paths of keys lead to restated nodes. -/
theorem descend?_restate
    (path : List String)
    (j : Json) :
    (j.restate rule).descend? path =
      (j.descend? path).map (restate rule) := by
  induction path generalizing j with
  | nil => rfl
  | cons key keys ih =>
      rw [descend?, descend?]
      split
      · next hKey =>
          rw [get?_restate (restateAt_of_not_isReserved hKey.2)]
          cases j.get? key with
          | none => rfl
          | some child => exact ih child
      · rfl

theorem isObject_restate_iff
    (j : Json) :
    (j.restate rule).IsObject ↔ j.IsObject := by
  cases j <;> rfl

/- Only objects are restated. -/
theorem restate_of_not_isObject
    {j : Json}
    (hOther : ¬ j.IsObject) :
    j.restate rule = j := by
  cases j with
  | object ms => exact absurd rfl hOther
  | _ => rfl

end Json

end DesignTokens

------------------------------------------------------------
-- Records
------------------------------------------------------------

namespace DesignTokens

/- What a record says but for its metadata. -/
def Record.gist
    {α : Type}
    (reading : TokenType → α)
    (record : Record) : Json × α × Option Collection :=
  (record.value, reading record.type, record.hint)

namespace MetadataRule

variable {α : Type}
variable {rule : MetadataRule}
variable {reading : TokenType → α}

/- Records keep their values, ... -/
theorem Keeps.get?_value
    (hKeeps : rule.Keeps reading)
    (node : Json) :
    (node.restate rule).get? Record.valueKey =
      node.get? Record.valueKey := by
  rw [Json.get?_restate_of_isReserved (f := id) (by decide)
    hKeeps.value, Option.map_id, id]

/- ... their hints, ... -/
theorem Keeps.get?_hint
    (hKeeps : rule.Keeps reading)
    (node : Json) :
    (node.restate rule).get? Record.collectionKey =
      node.get? Record.collectionKey := by
  rw [Json.get?_restate_of_isReserved (f := id) (by decide)
    hKeeps.hint, Option.map_id, id]

/- ... and of their types whether there is one ... -/
theorem Keeps.isSome_get?_type
    (hKeeps : rule.Keeps reading)
    (node : Json) :
    ((node.restate rule).get? Record.typeKey).isSome =
      (node.get? Record.typeKey).isSome := by
  rcases Classical.axiomOfChoice hKeeps.type with ⟨f, hType⟩
  rw [Json.get?_restate_of_isReserved (by decide)
    fun j => (hType j).1, Option.isSome_map]

/- ... and what is read from it. -/
theorem Keeps.readType_eq
    (hKeeps : rule.Keeps reading)
    (node : Json) :
    (Record.readType
        ((node.restate rule).get? Record.typeKey)).map reading =
      (Record.readType (node.get? Record.typeKey)).map reading := by
  rcases Classical.axiomOfChoice hKeeps.type with ⟨f, hType⟩
  rw [Json.get?_restate_of_isReserved (by decide)
    fun j => (hType j).1]
  cases node.get? Record.typeKey with
  | none => rfl
  | some j => exact (hType j).2

end MetadataRule

namespace Record

variable {α : Type}
variable {rule : MetadataRule}
variable {reading : TokenType → α}

theorem isRecord_restate_iff
    (hKeeps : rule.Keeps reading)
    (node : Json) :
    IsRecord (node.restate rule) ↔ IsRecord node := by
  rw [IsRecord, IsRecord, hKeeps.get?_value]

/- A restated record says the same, or has the same error. -/
theorem ofJson_restate
    (hKeeps : rule.Keeps reading)
    (node : Json) :
    (ofJson (node.restate rule)).map (gist reading) =
      (ofJson node).map (gist reading) := by
  cases node with
  | object ms =>
      have hValue := hKeeps.get?_value (.object ms)
      have hHint := hKeeps.get?_hint (.object ms)
      have hType := hKeeps.readType_eq (.object ms)
      rw [Json.restate] at hValue hHint hType
      rw [Json.restate, ofJson, ofJson, hValue, hHint]
      cases (Json.object ms).get? valueKey with
      | none => rfl
      | some value =>
          have hRead := Agree.of_map_eq hType
          dsimp only
          generalize
            readType
              ((Json.object (Json.restateMembers rule ms)).get?
                typeKey) = type,
            readType ((Json.object ms).get? typeKey) = type' at hRead ⊢
          cases hRead with
          | error e => rfl
          | ok hSame =>
              cases readHint ((Json.object ms).get? collectionKey) with
              | error e => rfl
              | ok hint => simp only [Except.map, gist, hSame]
  | _ => rfl

end Record

end DesignTokens

------------------------------------------------------------
-- The Walk
------------------------------------------------------------

namespace DesignTokens

/- The leaf with its node restated. -/
def Leaf.restate
    (rule : MetadataRule)
    (leaf : Leaf) : Leaf :=
  ⟨leaf.path, leaf.node.restate rule⟩

namespace Json

variable {α : Type}
variable {rule : MetadataRule}
variable {reading : TokenType → α}

/- All keys are reserved when they were. -/
theorem isReserved_keys_restate_iff
    (j : Json) :
    (∀ key ∈ (j.restate rule).keys, IsReserved key) ↔
      ∀ key ∈ j.keys, IsReserved key := by
  cases j with
  | object ms =>
      change
        (∀ key ∈ (restateMembers rule ms).map Prod.fst,
            IsReserved key) ↔
          ∀ key ∈ ms.map Prod.fst, IsReserved key
      simp only [List.mem_map, Prod.exists, exists_and_right,
        exists_eq_right, mem_restateMembers_iff]
      constructor
      · intro hAll key hMember
        rcases hMember with ⟨j, hMem⟩
        by_cases hKey : IsReserved key
        · exact hKey
        · exact
            hAll key ⟨_, j, hMem, restateAt_of_not_isReserved hKey j⟩
      · intro hAll key hMember
        rcases hMember with ⟨j', j, hMem, -⟩
        exact hAll key ⟨j, hMem⟩
  | _ => rfl

/- Namespaces stay namespaces. -/
theorem isNamespace_restate_iff
    (hKeeps : rule.Keeps reading)
    (j : Json) :
    (j.restate rule).IsNamespace ↔ j.IsNamespace := by
  rw [IsNamespace, IsNamespace, isObject_restate_iff,
    Record.isRecord_restate_iff hKeeps, IsStub, IsStub,
    isReserved_keys_restate_iff, hKeeps.isSome_get?_type]

mutual

/- The leaves at and below a node are those before, restated. -/
theorem leavesAt_restate
    (hKeeps : rule.Keeps reading)
    (path : List String) :
    (j : Json) →
      leavesAt path (j.restate rule) =
        (leavesAt path j).map (Leaf.restate rule)
| object ms => by
    have hNamespace := isNamespace_restate_iff hKeeps (object ms)
    rw [restate] at hNamespace ⊢
    rw [leavesAt, leavesAt]
    simp only [hNamespace]
    split
    · exact leavesBelow_restate hKeeps path ms
    · rfl
| null => rfl
| boolean _ => rfl
| number _ => rfl
| text _ => rfl
| array _ => rfl

theorem leavesBelow_restate
    (hKeeps : rule.Keeps reading)
    (path : List String) :
    (ms : List (String × Json)) →
      leavesBelow path (restateMembers rule ms) =
        (leavesBelow path ms).map (Leaf.restate rule)
| [] => rfl
| (key, j) :: ms => by
    have ih := leavesBelow_restate hKeeps path ms
    rw [restateMembers_cons, leavesBelow, List.map_append, ← ih]
    by_cases hKey : IsReserved key
    · cases restateAt rule key j <;> simp [leavesBelow, hKey]
    · have hNode := leavesAt_restate hKeeps (path ++ [key]) j
      simp [leavesBelow, hKey, restateAt_of_not_isReserved, hNode]

end

/- So are the leaves of a document. -/
theorem leaves_restate
    (hKeeps : rule.Keeps reading)
    (root : Json) :
    (root.restate rule).leaves =
      root.leaves.map (Leaf.restate rule) := by
  cases root with
  | object ms => exact leavesBelow_restate hKeeps [] ms
  | _ => rfl

end Json

end DesignTokens
