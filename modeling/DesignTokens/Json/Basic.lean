/-
  This file defines JSON values with ordered members.

  Key definitions include:
    * `Json`
    * `Json.Kind`
    * `Json.get?`
    * `Json.UniqueKeys`
    * `Json.settle`

  Key theorems include:
    * `Json.uniqueKeys_settle`

  Members keep the order in which they were written.  Values
  as they are written may repeat a key; `settle` gives a
  repeated key its first position and its last value.

  A number is the double that it is read as.  Whole numbers have
  no form of their own, so one that no double holds exactly is
  kept as the nearest, and `1` and `1.0` are the same value.
-/

------------------------------------------------------------
-- Values
------------------------------------------------------------

namespace DesignTokens

/- A JSON value.  The members of an object are ordered. -/
inductive Json where
| null
| boolean (b : Bool)
| number (x : Float)
| text (s : String)
| array (items : List Json)
| object (members : List (String × Json))
deriving Inhabited

namespace Json

/- The shape of a value. -/
inductive Kind where
| null
| boolean
| number
| string
| array
| object
deriving DecidableEq, Repr

/- The word for a shape in messages. -/
def Kind.name : Kind → String
| .null => "null"
| .boolean => "boolean"
| .number => "number"
| .string => "string"
| .array => "array"
| .object => "object"

/- The shape of a value. -/
def kind : Json → Kind
| null => .null
| boolean _ => .boolean
| number _ => .number
| text _ => .string
| array _ => .array
| object _ => .object

/- The value is an object. -/
def IsObject (j : Json) : Prop :=
  j.kind = .object

instance (j : Json) : Decidable j.IsObject := by
  unfold IsObject
  infer_instance

/- The members of an object; other values have none. -/
def members : Json → List (String × Json)
| object ms => ms
| _ => []

/- The keys of an object; other values have none. -/
def keys (j : Json) : List String :=
  j.members.map Prod.fst

/- The member of an object under a key. -/
def get?
    (j : Json)
    (key : String) : Option Json :=
  j.members.lookup key

/- The text of a string value. -/
def asText? : Json → Option String
| text s => some s
| _ => none

theorem isObject_iff
    (j : Json) :
    j.IsObject ↔ ∃ ms, j = object ms := by
  cases j <;> simp [IsObject, kind]

end Json

end DesignTokens

------------------------------------------------------------
-- Unique Keys
------------------------------------------------------------

namespace DesignTokens

namespace Json

mutual

/- No object inside the value repeats a key. -/
def UniqueKeys : Json → Prop
| array items => UniqueKeysItems items
| object ms => (ms.map Prod.fst).Nodup ∧ UniqueKeysMembers ms
| _ => True

/- No object inside one of the items repeats a key. -/
def UniqueKeysItems : List Json → Prop
| [] => True
| j :: js => UniqueKeys j ∧ UniqueKeysItems js

/- No object inside one of the members repeats a key. -/
def UniqueKeysMembers : List (String × Json) → Prop
| [] => True
| (_, j) :: ms => UniqueKeys j ∧ UniqueKeysMembers ms

end

theorem uniqueKeysItems_iff
    (js : List Json) :
    UniqueKeysItems js ↔ ∀ j ∈ js, UniqueKeys j := by
  induction js with
  | nil => simp [UniqueKeysItems]
  | cons j js ih => simp [UniqueKeysItems, ih]

theorem uniqueKeysMembers_iff
    (ms : List (String × Json)) :
    UniqueKeysMembers ms ↔ ∀ m ∈ ms, UniqueKeys m.2 := by
  induction ms with
  | nil => simp [UniqueKeysMembers]
  | cons m ms ih => simp [UniqueKeysMembers, ih]

/- The empty object repeats no key. -/
theorem uniqueKeys_emptyObject :
    UniqueKeys (object []) := by
  simp [UniqueKeys, UniqueKeysMembers]

end Json

end DesignTokens

------------------------------------------------------------
-- Settling Repeated Keys
------------------------------------------------------------

namespace DesignTokens

namespace Json

/-
  Put a member in front of members that follow it.  A later
  member with the same key gives its value up to the front.
-/
def putFirst
    (key : String)
    (value : Json)
    (later : List (String × Json)) : List (String × Json) :=
  (key, (later.lookup key).getD value)
    :: later.filter (fun m => m.1 ≠ key)

mutual

/-
  Resolve repeated keys everywhere inside a value: the first
  position and the last value win.
-/
def settle : Json → Json
| null => null
| boolean b => boolean b
| number x => number x
| text s => text s
| array items => array (settleItems items)
| object ms => object (settleMembers ms)

/- Resolve repeated keys inside every item. -/
def settleItems : List Json → List Json
| [] => []
| j :: js => settle j :: settleItems js

/- Resolve repeated keys among members and inside them. -/
def settleMembers : List (String × Json) → List (String × Json)
| [] => []
| (key, j) :: ms => putFirst key (settle j) (settleMembers ms)

end

/- A key put in front does not occur again. -/
theorem putFirst_keys_nodup
    {key : String}
    {value : Json}
    {later : List (String × Json)}
    (h : (later.map Prod.fst).Nodup) :
    ((putFirst key value later).map Prod.fst).Nodup := by
  unfold putFirst
  rw [List.map_cons, List.nodup_cons]
  constructor
  · simp
  · exact h.sublist (List.filter_sublist.map _)

/- Looking a key up finds one of the members. -/
theorem mem_of_lookup
    {key : String}
    {value : Json}
    {ms : List (String × Json)}
    (h : ms.lookup key = some value) :
    (key, value) ∈ ms := by
  induction ms with
  | nil => simp at h
  | cons m ms ih =>
      obtain ⟨k, v⟩ := m
      rw [List.lookup_cons] at h
      by_cases hk : key = k
      · subst hk
        simp at h
        simp [h]
      · have hb : (key == k) = false := by simp [hk]
        rw [hb] at h
        exact List.mem_cons_of_mem _ (ih h)

/- Putting a member in front keeps the values free of repeats. -/
theorem putFirst_uniqueKeysMembers
    {key : String}
    {value : Json}
    {later : List (String × Json)}
    (hValue : UniqueKeys value)
    (hLater : UniqueKeysMembers later) :
    UniqueKeysMembers (putFirst key value later) := by
  rw [uniqueKeysMembers_iff] at hLater ⊢
  intro m hm
  rcases List.mem_cons.mp hm with rfl | hm
  · cases hLookup : later.lookup key with
    | none => simpa [hLookup] using hValue
    | some v =>
        simpa [hLookup] using
          hLater (key, v) (mem_of_lookup hLookup)
  · exact hLater m (List.mem_filter.mp hm).1

mutual

/- Settled values repeat no key. -/
theorem uniqueKeys_settle :
    (j : Json) → UniqueKeys (settle j)
| null => trivial
| boolean _ => trivial
| number _ => trivial
| text _ => trivial
| array items => uniqueKeysItems_settle items
| object ms => uniqueKeysMembers_settle ms

theorem uniqueKeysItems_settle :
    (js : List Json) → UniqueKeysItems (settleItems js)
| [] => trivial
| j :: js => ⟨uniqueKeys_settle j, uniqueKeysItems_settle js⟩

theorem uniqueKeysMembers_settle :
    (ms : List (String × Json)) →
      ((settleMembers ms).map Prod.fst).Nodup
        ∧ UniqueKeysMembers (settleMembers ms)
| [] => ⟨List.nodup_nil, trivial⟩
| (_, j) :: ms =>
    have ih := uniqueKeysMembers_settle ms
    ⟨putFirst_keys_nodup ih.1,
      putFirst_uniqueKeysMembers (uniqueKeys_settle j) ih.2⟩

end

end Json

end DesignTokens
