import DesignTokens.Literal.ValueText
import DesignTokens.Proofs.Store.Locations

/-
  This file defines values that are equal up to the order of
  keys, and proves that reading a value by its keys does not
  depend on that order.

  Key definitions include:
    * `Json.Reordered`
    * `Json.Matches`
    * `Agree`

  Key theorems include:
    * `Json.reordered_refl`
    * `Json.Matches.get?`
    * `Json.Matches.descend?`
    * `Record.ofJson_agree`

  Where no key is repeated, a key has one member at most, so
  looking it up finds the same member in any order.
-/

------------------------------------------------------------
-- Equality up to the Order of Keys
------------------------------------------------------------

namespace DesignTokens

namespace Json

mutual

/-
  Two values are equal as unordered JSON: at every level, the
  members of objects may stand in another order.
-/
def Reordered : Json → Json → Prop
| object ms, j => ∃ ms', j = object ms' ∧ ReorderedMembers ms ms'
| array items, j =>
    ∃ items', j = array items' ∧ ReorderedItems items items'
| null, j => j = null
| boolean b, j => j = boolean b
| number x, j => j = number x
| text s, j => j = text s

/- Items keep their places. -/
def ReorderedItems : List Json → List Json → Prop
| [], items => items = []
| j :: js, items =>
    ∃ j' js',
      items = j' :: js' ∧ Reordered j j' ∧ ReorderedItems js js'

/- Each member stands somewhere among the others. -/
def ReorderedMembers :
    List (String × Json) → List (String × Json) → Prop
| [], members => members = []
| (key, j) :: ms, members =>
    ∃ j' before after,
      members = before ++ (key, j') :: after
        ∧ Reordered j j'
        ∧ ReorderedMembers ms (before ++ after)

end

mutual

/- A value is equal to itself. -/
theorem reordered_refl : (j : Json) → Reordered j j
| null => rfl
| boolean _ => rfl
| number _ => rfl
| text _ => rfl
| array items => ⟨items, rfl, reorderedItems_refl items⟩
| object ms => ⟨ms, rfl, reorderedMembers_refl ms⟩

theorem reorderedItems_refl :
    (js : List Json) → ReorderedItems js js
| [] => rfl
| j :: js => ⟨j, js, rfl, reordered_refl j, reorderedItems_refl js⟩

theorem reorderedMembers_refl :
    (ms : List (String × Json)) → ReorderedMembers ms ms
| [] => rfl
| (_, j) :: ms =>
    ⟨j, [], ms, rfl, reordered_refl j, reorderedMembers_refl ms⟩

end

variable {j j' : Json}
variable {items items' : List Json}
variable {ms ms' : List (String × Json)}

/- Members may be put into any order. -/
theorem reorderedMembers_of_perm
    (hPerm : ms.Perm ms') :
    ReorderedMembers ms ms' := by
  induction ms generalizing ms' with
  | nil => exact List.nil_perm.mp hPerm
  | cons m ms ih =>
      have hMem : m ∈ ms' := hPerm.subset List.mem_cons_self
      rcases List.append_of_mem hMem with ⟨before, after, rfl⟩
      have hLater : ms.Perm (before ++ after) :=
        List.perm_cons m |>.mp (hPerm.trans List.perm_middle)
      exact
        ⟨m.2, before, after, rfl, reordered_refl m.2, ih hLater⟩

/- What does not look into arrays and objects sees no order. -/
theorem Reordered.congr
    {α : Type}
    {f : Json → α}
    (hReordered : j.Reordered j')
    (hArray : ∀ items items', f (array items) = f (array items'))
    (hObject : ∀ ms ms', f (object ms) = f (object ms')) :
    f j = f j' := by
  cases j with
  | array items =>
      rcases hReordered with ⟨items', rfl, -⟩
      exact hArray items items'
  | object ms =>
      rcases hReordered with ⟨ms', rfl, -⟩
      exact hObject ms ms'
  | _ => rw [hReordered]

/- Nor does it in fields that may be absent. -/
theorem Reordered.congr_field
    {α : Type}
    {f : Option Json → α}
    {field field' : Option Json}
    (hFields : Option.Rel Reordered field field')
    (hArray :
      ∀ items items', f (some (array items)) = f (some (array items')))
    (hObject :
      ∀ ms ms', f (some (object ms)) = f (some (object ms'))) :
    f field = f field' := by
  cases hFields with
  | none => rfl
  | some hReordered =>
      exact hReordered.congr (f := fun j => f (some j)) hArray hObject

/- Equal values have one shape. -/
theorem Reordered.kind_eq
    (hReordered : j.Reordered j') :
    j.kind = j'.kind :=
  hReordered.congr (fun _ _ => rfl) fun _ _ => rfl

theorem ReorderedItems.length_eq
    (hReordered : ReorderedItems items items') :
    items'.length = items.length := by
  induction items generalizing items' with
  | nil => rw [hReordered]
  | cons j js ih =>
      rcases hReordered with ⟨j', js', rfl, -, hLater⟩
      rw [List.length_cons, List.length_cons, ih hLater]

/- Equal items stand at each place. -/
theorem ReorderedItems.getElem?
    (hReordered : ReorderedItems items items')
    (i : Nat) :
    Option.Rel Reordered items[i]? items'[i]? := by
  induction items generalizing items' i with
  | nil =>
      rw [hReordered]
      exact Option.Rel.none
  | cons j js ih =>
      rcases hReordered with ⟨j', js', rfl, hFirst, hLater⟩
      cases i with
      | zero => exact Option.Rel.some hFirst
      | succ i => exact ih hLater i

/- Equal objects have the same keys. -/
theorem ReorderedMembers.keys_perm
    (hReordered : ReorderedMembers ms ms') :
    (ms.map Prod.fst).Perm (ms'.map Prod.fst) := by
  induction ms generalizing ms' with
  | nil => rw [hReordered]
  | cons m ms ih =>
      obtain ⟨key, j⟩ := m
      rcases hReordered with ⟨j', before, after, rfl, -, hLater⟩
      have hKeys := (ih hLater).cons key
      rw [List.map_append] at hKeys
      rw [List.map_append, List.map_cons, List.map_cons]
      exact hKeys.trans List.perm_middle.symm

/- A member of another key does not matter to a lookup. -/
theorem lookup_append_cons_of_ne
    {key key' : String}
    (hNe : key ≠ key')
    (before after : List (String × Json))
    (j : Json) :
    (before ++ (key', j) :: after).lookup key =
      (before ++ after).lookup key := by
  have hOther : (key == key') = false := by simp [hNe]
  rw [List.lookup_append, List.lookup_append, List.lookup_cons, hOther]

/- Without repeated keys, lookups find equal values. -/
theorem ReorderedMembers.lookup
    (hReordered : ReorderedMembers ms ms')
    (hNodup : (ms'.map Prod.fst).Nodup)
    (key : String) :
    Option.Rel Reordered (ms.lookup key) (ms'.lookup key) := by
  induction ms generalizing ms' with
  | nil =>
      rw [hReordered]
      exact Option.Rel.none
  | cons m ms ih =>
      obtain ⟨k, j⟩ := m
      rcases hReordered with ⟨j', before, after, rfl, hFirst, hLater⟩
      by_cases hKey : key = k
      · subst hKey
        have hMem : (key, j') ∈ before ++ (key, j') :: after := by simp
        rw [List.lookup_cons_self, lookup_eq_some_of_mem hNodup hMem]
        exact Option.Rel.some hFirst
      · have hOther : (key == k) = false := by simp [hKey]
        have hRest : ((before ++ after).map Prod.fst).Nodup := by
          have hFewer := List.sublist_cons_self (k, j') after
          exact hNodup.sublist ((hFewer.append_left before).map Prod.fst)
        rw [List.lookup_cons, hOther,
          lookup_append_cons_of_ne hKey before after j']
        exact ih hLater hRest

end Json

end DesignTokens

------------------------------------------------------------
-- Values Read by Their Keys
------------------------------------------------------------

namespace DesignTokens

namespace Json

/- Equal values of which the second one repeats no key. -/
structure Matches (j j' : Json) : Prop where
  reordered : j.Reordered j'
  uniqueKeys : j'.UniqueKeys

namespace Matches

variable {j j' : Json}

theorem isObject_iff
    (hMatch : j.Matches j') :
    j.IsObject ↔ j'.IsObject := by
  rw [IsObject, IsObject, hMatch.reordered.kind_eq]

/- The members of an object are equal up to their order. -/
theorem members
    (hMatch : j.Matches j') :
    ReorderedMembers j.members j'.members := by
  have hReordered := hMatch.reordered
  cases j with
  | object ms =>
      rcases hReordered with ⟨ms', rfl, hMembers⟩
      exact hMembers
  | array items =>
      rcases hReordered with ⟨_, rfl, -⟩
      rfl
  | _ =>
      rw [hReordered]
      rfl

theorem mem_keys_iff
    (hMatch : j.Matches j')
    (key : String) :
    key ∈ j.keys ↔ key ∈ j'.keys :=
  hMatch.members.keys_perm.mem_iff

/- Under one key stand equal values. -/
theorem reordered_get?
    (hMatch : j.Matches j')
    (key : String) :
    Option.Rel Reordered (j.get? key) (j'.get? key) :=
  hMatch.members.lookup hMatch.uniqueKeys.keys_nodup key

theorem get?
    (hMatch : j.Matches j')
    (key : String) :
    Option.Rel Matches (j.get? key) (j'.get? key) := by
  have hFound := hMatch.reordered_get? key
  have hUnique (child : Json) (hChild : j'.get? key = some child) :
      child.UniqueKeys :=
    hMatch.uniqueKeys.of_mem_members (mem_of_lookup hChild)
  generalize j.get? key = found, j'.get? key = found' at *
  cases hFound with
  | none => exact Option.Rel.none
  | some hReordered => exact Option.Rel.some ⟨hReordered, hUnique _ rfl⟩

theorem isSome_get?
    (hMatch : j.Matches j')
    (key : String) :
    (j.get? key).isSome = (j'.get? key).isSome := by
  have hFound := hMatch.get? key
  generalize j.get? key = found, j'.get? key = found' at *
  cases hFound <;> rfl

/- So do they at the end of one path. -/
theorem descend?
    (hMatch : j.Matches j')
    (path : List String) :
    Option.Rel Matches (j.descend? path) (j'.descend? path) := by
  induction path generalizing j j' with
  | nil => exact Option.Rel.some hMatch
  | cons key keys ih =>
      rw [Json.descend?, Json.descend?]
      split
      · have hFound := hMatch.get? key
        generalize j.get? key = found, j'.get? key = found' at *
        cases hFound with
        | none => exact Option.Rel.none
        | some hChild => exact ih hChild
      · exact Option.Rel.none

end Matches

end Json

end DesignTokens

------------------------------------------------------------
-- Records
------------------------------------------------------------

namespace DesignTokens

/- Two results hold the same error, or values that are related. -/
inductive Agree
    {ε α β : Type}
    (related : α → β → Prop) : Except ε α → Except ε β → Prop
| ok {a : α} {b : β} :
    related a b → Agree related (.ok a) (.ok b)
| error (e : ε) : Agree related (.error e) (.error e)

/- Results that a function makes equal hold values that it does. -/
theorem Agree.of_map_eq
    {ε α β : Type}
    {f : α → β}
    {result result' : Except ε α}
    (hEqual : result.map f = result'.map f) :
    Agree (fun a a' => f a = f a') result result' := by
  cases result with
  | error e =>
      cases result' with
      | error e' =>
          cases hEqual
          exact Agree.error e
      | ok a' => cases hEqual
  | ok a =>
      cases result' with
      | error e' => cases hEqual
      | ok a' => exact Agree.ok (Except.ok.inj hEqual)

/- Equal values are literals of equal values. -/
theorem Literal.ofJson?_rel
    {j j' : Json}
    (hReordered : j.Reordered j') :
    Option.Rel (fun l l' => l.toJson.Reordered l'.toJson)
      (ofJson? j) (ofJson? j') := by
  cases j with
  | null =>
      rw [hReordered]
      exact Option.Rel.none
  | array items =>
      rcases hReordered with ⟨items', rfl, hItems⟩
      exact Option.Rel.some ⟨items', rfl, hItems⟩
  | object ms =>
      rcases hReordered with ⟨ms', rfl, hMembers⟩
      exact Option.Rel.some ⟨ms', rfl, hMembers⟩
  | _ =>
      rw [hReordered]
      exact Option.Rel.some rfl

/- Literals of equal values have one text. -/
theorem Literal.valueText_eq
    {l l' : Literal}
    (hReordered : l.toJson.Reordered l'.toJson)
    (type : TokenType) :
    l.valueText type = l'.valueText type := by
  have hText :
      (ofJson? l.toJson).map (valueText type) =
        (ofJson? l'.toJson).map (valueText type) :=
    hReordered.congr (f := fun j => (ofJson? j).map (valueText type))
      (fun _ _ => rfl) fun _ _ => rfl
  have hForm (l : Literal) : ofJson? l.toJson = some l :=
    (ofJson?_eq_some_iff l.toJson l).mpr rfl
  simpa [hForm] using hText

namespace Deprecation

/- Notices that are equal are read alike. -/
theorem Notice.ofJson?_eq
    {notice notice' : Json}
    (hMatch : notice.Matches notice') :
    ofJson? notice = ofJson? notice' := by
  have hFlag {field field' : Option Json}
      (hFields : Option.Rel Json.Reordered field field') :
      flag? field = flag? field' :=
    Json.Reordered.congr_field hFields (fun _ _ => rfl) fun _ _ => rfl
  have hReplacement {field field' : Option Json}
      (hFields : Option.Rel Json.Reordered field field') :
      replacement? field = replacement? field' :=
    Json.Reordered.congr_field hFields (fun _ _ => rfl) fun _ _ => rfl
  cases notice with
  | object ms =>
      have hField := hMatch.reordered_get?
      rcases hMatch.reordered with ⟨ms', rfl, -⟩
      change
        ∀ key, Option.Rel _ (ms.lookup key) (ms'.lookup key) at hField
      rw [ofJson?, ofJson?, hFlag (hField _), hReplacement (hField _)]
  | array items =>
      rcases hMatch.reordered with ⟨items', rfl, hItems⟩
      rw [ofJson?, ofJson?, hItems.length_eq,
        hFlag (hItems.getElem? 0), hReplacement (hItems.getElem? 1)]
  | _ => rw [hMatch.reordered]

/- So are deprecations. -/
theorem ofExtensions?_eq
    {extensions extensions' : Json}
    (hMatch : extensions.Matches extensions') :
    ofExtensions? extensions = ofExtensions? extensions' := by
  have hNotice :
      (noticeOf extensions).Matches (noticeOf extensions') := by
    have hFound := hMatch.get? "deprecation"
    unfold noticeOf
    generalize extensions.get? "deprecation" = found,
      extensions'.get? "deprecation" = found' at hFound ⊢
    cases hFound with
    | none => exact hMatch
    | some hNotice => exact hNotice
  rw [ofExtensions?, ofExtensions?, Notice.ofJson?_eq hNotice]

end Deprecation

namespace Record

/- Records that differ at most by the order of keys. -/
structure Matches (record record' : Record) : Prop where
  value : record.value.Reordered record'.value
  type : record.type = record'.type
  hint : record.hint = record'.hint
  description : record.description = record'.description
  deprecation : record.deprecation = record'.deprecation

variable {node node' : Json}

theorem isRecord_iff
    (hMatch : node.Matches node') :
    IsRecord node ↔ IsRecord node' := by
  rw [IsRecord, IsRecord, hMatch.isSome_get?]

theorem deprecationOf?_eq
    (hMatch : node.Matches node') :
    deprecationOf? node = deprecationOf? node' := by
  have hFound := hMatch.get? extensionsKey
  unfold deprecationOf?
  generalize node.get? extensionsKey = found,
    node'.get? extensionsKey = found' at hFound ⊢
  cases hFound with
  | none => rfl
  | some hExtensions => exact Deprecation.ofExtensions?_eq hExtensions

/- Equal nodes hold equal records, or none for the same reason. -/
theorem ofJson_agree
    (hMatch : node.Matches node') :
    Agree Matches (ofJson node) (ofJson node') := by
  have hField := hMatch.reordered_get?
  have hValue := hField valueKey
  have hType :
      readType (node.get? typeKey) = readType (node'.get? typeKey) :=
    Json.Reordered.congr_field (hField typeKey) (fun _ _ => rfl)
      fun _ _ => rfl
  have hHint :
      readHint (node.get? collectionKey) =
        readHint (node'.get? collectionKey) :=
    Json.Reordered.congr_field (hField collectionKey) (fun _ _ => rfl)
      fun _ _ => rfl
  have hDescription :
      (node.get? descriptionKey).bind Json.asText? =
        (node'.get? descriptionKey).bind Json.asText? :=
    Json.Reordered.congr_field
      (f := fun field => field.bind Json.asText?)
      (hField descriptionKey) (fun _ _ => rfl) fun _ _ => rfl
  cases node with
  | object ms =>
      rcases hMatch.reordered with ⟨ms', rfl, -⟩
      rw [ofJson, ofJson, hType, hHint, hDescription,
        deprecationOf?_eq hMatch]
      generalize (Json.object ms).get? valueKey = value,
        (Json.object ms').get? valueKey = value' at hValue ⊢
      cases hValue with
      | none => exact Agree.error _
      | some hValue =>
          cases readType ((Json.object ms').get? typeKey) with
          | error e => exact Agree.error e
          | ok type =>
              cases readHint ((Json.object ms').get? collectionKey) with
              | error e => exact Agree.error e
              | ok hint => exact Agree.ok ⟨hValue, rfl, rfl, rfl, rfl⟩
  | array items =>
      rcases hMatch.reordered with ⟨items', rfl, -⟩
      exact Agree.error _
  | _ =>
      rw [hMatch.reordered]
      exact Agree.error _

end Record

end DesignTokens
