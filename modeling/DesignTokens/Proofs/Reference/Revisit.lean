import DesignTokens.Proofs.Reference.Outcome
import DesignTokens.Proofs.Reference.Syntax
import Mathlib.Data.List.Chain

/-
  This file proves that the chain of a reported cycle is a walk
  through the store that comes back to one of its nodes.

  Key definitions include:
    * `Json.tokenValue`
    * `Store.Designates`
    * `Store.LeadsTo`

  Key theorems include:
    * `Store.Designates.unique`
    * `Store.Chain.isChain_leadsTo`
    * `Store.cycle_is_revisit`

  A chain is shown by its labels.  A label tells which node its
  hop landed at, though a node may have two labels, one for each
  notation.  So distinct nodes have distinct labels, but the
  last label may be spelled unlike the one it comes back to.
-/

------------------------------------------------------------
-- Labels
------------------------------------------------------------

namespace DesignTokens

/- A label tells the layer and the path that it is made of. -/
theorem Collection.label_inj
    {c d : Collection}
    {path path' : String}
    (hEq : c.name ++ ":" ++ path = d.name ++ ":" ++ path') :
    c = d ∧ path = path' := by
  -- No layer has a colon in its name, so the first one ends it.
  have hName (e : Collection) : ':' ∉ e.name.toList := by
    cases e <;> decide
  have hChars :
      c.name.toList ++ ':' :: path.toList =
        d.name.toList ++ ':' :: path'.toList := by
    simpa [String.append_assoc] using congrArg String.toList hEq
  rcases Text.append_cons_inj (hName c) (hName d) hChars with
    ⟨hLayer, hPath⟩
  exact
    ⟨Collection.name_injective (String.toList_inj.mp hLayer),
      String.toList_inj.mp hPath⟩

namespace Store

/-
  A label designates a node when it is made of a layer and the
  path of a reference that means the node in that layer.
-/
structure Designates
    (store : Store)
    (label : String)
    (r : Reference)
    (l : Location)
    (node : Json) : Prop where
  label_eq : label = l.collection.name ++ ":" ++ r.path
  wellFormed : r.IsWellFormed
  means : store.Means r l.collection l node

variable {store : Store}
variable {r r' : Reference}
variable {l l' : Location}
variable {node node' : Json}

/- A label designates one node at most. -/
theorem Designates.unique
    {label : String}
    (hFirst : store.Designates label r l node)
    (hSecond : store.Designates label r' l' node') :
    r' = r ∧ l' = l ∧ node' = node := by
  rcases Collection.label_inj (hSecond.label_eq.symm.trans hFirst.label_eq)
    with ⟨hLayer, hPath⟩
  obtain rfl : r' = r := congrArg Reference.mk hPath
  have hMeans := hSecond.means
  rw [hLayer] at hMeans
  rcases hMeans.unique hFirst.means with ⟨rfl, rfl⟩
  exact ⟨rfl, rfl, rfl⟩

/- The label of a hop designates the node that it landed at. -/
theorem Hops.designates
    {p q : Position}
    {hop : Hop}
    (hHop : store.Hops p hop q) :
    ∃ node,
      store.Designates hop.label hop.reference hop.location node := by
  cases hHop with
  | intro hReference hLands _ =>
      rcases hLands with ⟨c, before, after, -, -, hMeans⟩
      obtain rfl := hMeans.collection_eq
      rw [Position.reference?, Reference.ofJson?_eq_some_iff]
        at hReference
      exact ⟨_, rfl, hReference.1, hMeans⟩

end Store

end DesignTokens

------------------------------------------------------------
-- From Hop to Hop
------------------------------------------------------------

namespace DesignTokens

/- The value of a record, and any other node itself. -/
def Json.tokenValue (node : Json) : Json :=
  (node.get? Record.valueKey).getD node

namespace Store

/- The value that one hop landed at is the next one's reference. -/
def LeadsTo
    (store : Store)
    (hop next : Hop) : Prop :=
  ∃ node,
    store.node? hop.location = some node
      ∧ Reference.ofJson? node.tokenValue = some next.reference

variable {store : Store}
variable {p q : Position}
variable {hop : Hop} {hops : List Hop}

/- A chain goes on with the value of the node it landed at. -/
theorem Continues.value_eq
    {node value : Json}
    {hint hint' : Option Collection}
    (hContinues : Continues node hint value hint') :
    value = node.tokenValue := by
  cases hContinues with
  | record _ hValue =>
      rw [Json.tokenValue, hValue, Option.getD_some]
  | plain hObject =>
      have hNone : node.get? Record.valueKey = none := by
        rw [← Option.not_isSome_iff_eq_none]
        exact fun hIs => hObject (Record.isObject_of_isRecord hIs)
      rw [Json.tokenValue, hNone, Option.getD_none]

theorem Hops.value_eq
    (hHop : store.Hops p hop q) :
    ∃ node,
      store.node? hop.location = some node
        ∧ q.value = node.tokenValue := by
  cases hHop with
  | intro _ hLands hContinues =>
      exact ⟨_, hLands.node?_eq, hContinues.value_eq⟩

/- A chain starts with the reference at its position. -/
theorem Chain.head?_reference
    (hChain : store.Chain p hops q)
    (hMem : hop ∈ hops.head?) :
    p.reference? = some hop.reference := by
  cases hChain with
  | nil _ => simp at hMem
  | cons hHop _ =>
      obtain rfl := Option.some.inj hMem
      exact ((store.hops_iff_step ..).mp hHop).1

/- Each hop of a chain leads to the next one. -/
theorem Chain.isChain_leadsTo
    (hChain : store.Chain p hops q) :
    hops.IsChain store.LeadsTo := by
  induction hChain with
  | nil _ => exact List.isChain_nil
  | cons hHop hTail ih =>
      apply ih.cons
      intro next hNext
      rcases hHop.value_eq with ⟨node, hNode, hValue⟩
      refine ⟨node, hNode, ?_⟩
      rw [← hValue]
      exact hTail.head?_reference hNext

/- Every label of a chain designates the node of its hop. -/
theorem Chain.designates
    (hChain : store.Chain p hops q)
    (hMem : hop ∈ hops) :
    ∃ node,
      store.Designates hop.label hop.reference hop.location node := by
  induction hChain with
  | nil _ => simp at hMem
  | cons hHop _ ih =>
      rcases List.mem_cons.mp hMem with rfl | hMem
      · exact hHop.designates
      · exact ih hMem

/- So hops of a trail have labels of their own. -/
theorem Trail.label_nodup
    (hTrail : store.Trail p hops q) :
    (hops.map Hop.label).Nodup := by
  have hHops := List.Nodup.of_map _ hTrail.distinct
  apply (List.nodup_map_iff_inj_on hHops).mpr
  intro hop hMem other hOther hLabel
  rcases hTrail.chain.designates hMem with ⟨node, hFirst⟩
  rcases hTrail.chain.designates hOther with ⟨node', hSecond⟩
  rw [← hLabel] at hSecond
  rcases hFirst.unique hSecond with ⟨hReference, hLocation, -⟩
  cases hop
  cases other
  simp only at hReference hLocation
  rw [hReference, hLocation]

end Store

end DesignTokens

------------------------------------------------------------
-- Reported Cycles
------------------------------------------------------------

namespace DesignTokens

namespace Store

variable {store : Store}
variable {limit : Nat}
variable {raw : Json}
variable {scope : Scope}

/-
  A reported cycle is a real revisit.  Its labels designate the
  nodes of a walk that starts with the raw reference: each node
  holds the next reference.  All nodes but the last are
  distinct, and so are their labels; the last is exactly one of
  them again.
-/
theorem cycle_is_revisit
    {chain : List Hop}
    (hCycle :
      store.resolve limit raw scope = .error (.cycle chain)) :
    ∃ trail last,
      chain = trail ++ [last]
        ∧ 1 ≤ trail.length
        ∧ trail.length + 1 ≤ limit
        ∧ (∀ hop ∈ chain, ∃ node,
            store.Designates hop.label hop.reference hop.location node
              ∧ ∀ r l node',
                  store.Designates hop.label r l node' →
                    r = hop.reference ∧ l = hop.location ∧ node' = node)
        ∧ (∃ first ∈ chain.head?,
            Reference.ofJson? raw = some first.reference)
        ∧ chain.IsChain store.LeadsTo
        ∧ (trail.map Hop.label).Nodup
        ∧ (trail.map Hop.location).Nodup
        ∧ ∃! hop, hop ∈ trail ∧ hop.location = last.location := by
  rcases exists_trail_of_cycle hCycle with
    ⟨trail, last, p, q, rfl, hTrail, hHop, hLength, hMem⟩
  have hChain := hTrail.chain.append (Chain.single hHop)
  rcases List.mem_map.mp hMem with ⟨back, hBack, hLocation⟩
  refine
    ⟨trail, last, rfl, List.length_pos_of_mem hBack, hLength, ?_, ?_,
      hChain.isChain_leadsTo, hTrail.label_nodup, hTrail.distinct,
      back, ⟨hBack, hLocation⟩, ?_⟩
  · intro hop hMem
    rcases hChain.designates hMem with ⟨node, hDesignates⟩
    exact
      ⟨node, hDesignates, fun _ _ _ hOther => hDesignates.unique hOther⟩
  · rcases List.exists_cons_of_ne_nil (List.ne_nil_of_mem hBack) with
      ⟨first, rest, rfl⟩
    exact ⟨first, rfl, hChain.head?_reference rfl⟩
  · intro other hOther
    exact
      List.inj_on_of_nodup_map hTrail.distinct hOther.1 hBack
        (hOther.2.trans hLocation.symm)

/- A token that points at itself in the other notation. -/
def respelledSelf : Store where
  documents :=
    { primitives :=
        { root := .object [
            ("a", .object [
              ("b", .object [("$value", .text "\x7ba-b\x7d")])])]
          uniqueKeys := by
            simp [Json.UniqueKeys, Json.UniqueKeysMembers] }
      semantic := .empty
      component := .empty }
  isObject c := by cases c <;> rfl

/- The chain that is reported for it. -/
def respelledChain : List Hop :=
  [⟨⟨"a.b"⟩, ⟨.primitives, ["a", "b"]⟩⟩,
    ⟨⟨"a-b"⟩, ⟨.primitives, ["a", "b"]⟩⟩]

/- Its two labels differ, and still it comes back to its node. -/
theorem respelledChain_is_revisit :
    respelledSelf.resolve 10 (.text "\x7ba.b\x7d") ⟨.primitives, none⟩ =
        .error (.cycle respelledChain)
      ∧ respelledChain.map Hop.label =
          ["primitives:a.b", "primitives:a-b"]
      ∧ ∃ trail last,
          respelledChain = trail ++ [last]
            ∧ ∃! hop, hop ∈ trail ∧ hop.location = last.location := by
  have hCycle :
      respelledSelf.resolve 10 (.text "\x7ba.b\x7d")
          ⟨.primitives, none⟩ =
        .error (.cycle respelledChain) := rfl
  rcases cycle_is_revisit hCycle with
    ⟨trail, last, hChain, -, -, -, -, -, -, -, hBack⟩
  exact ⟨hCycle, by decide, trail, last, hChain, hBack⟩

end Store

end DesignTokens
