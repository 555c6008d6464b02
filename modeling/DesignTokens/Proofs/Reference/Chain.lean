import DesignTokens.Proofs.Reference.Hop
import DesignTokens.Proofs.Store.Locations

/-
  This file defines chains of hops and proves their laws.

  Key definitions include:
    * `Store.Chain`
    * `Store.Trail`

  Key theorems include:
    * `Store.Chain.append`
    * `Store.Chain.split`
    * `Store.Chain.exists_hop_of_mem`
    * `Store.Chain.extends_of_length_le`
    * `Store.Trail.length_le_card`
    * `Store.Chain.exists_hop_of_lands`

  From one position there is one chain of each length at most,
  so longer chains extend the shorter ones.  A trail is a chain
  that lands at no location twice, and a store has only so many
  locations.
-/

------------------------------------------------------------
-- Chains
------------------------------------------------------------

namespace DesignTokens

namespace Store

/- Hops made one after the other, from a position to another. -/
inductive Chain
    (store : Store) : Position → List Hop → Position → Prop
| nil (p : Position) : store.Chain p [] p
| cons {p q stop : Position} {hop : Hop} {hops : List Hop} :
    store.Hops p hop q →
      store.Chain q hops stop →
        store.Chain p (hop :: hops) stop

namespace Chain

variable {store : Store}
variable {p q stop : Position}
variable {hop : Hop} {hops rest : List Hop}

/- A single hop is a chain. -/
theorem single
    (hHop : store.Hops p hop q) :
    store.Chain p [hop] q :=
  Chain.cons hHop (Chain.nil q)

/- Chains that meet make one chain. -/
theorem append
    (hChain : store.Chain p hops q)
    (hRest : store.Chain q rest stop) :
    store.Chain p (hops ++ rest) stop := by
  induction hChain with
  | nil _ => exact hRest
  | cons hHop _ ih => exact Chain.cons hHop (ih hRest)

/- A chain can be cut anywhere. -/
theorem split
    (hChain : store.Chain p (hops ++ rest) stop) :
    ∃ q, store.Chain p hops q ∧ store.Chain q rest stop := by
  induction hops generalizing p with
  | nil => exact ⟨p, Chain.nil p, hChain⟩
  | cons hop hops ih =>
      cases hChain with
      | cons hHop hTail =>
          rcases ih hTail with ⟨q, hHops, hRest⟩
          exact ⟨q, Chain.cons hHop hHops, hRest⟩

/- A chain of some length has a beginning of each smaller one. -/
theorem take
    (hChain : store.Chain p hops stop)
    (n : Nat) :
    ∃ q,
      store.Chain p (hops.take n) q ∧
        store.Chain q (hops.drop n) stop := by
  rw [← List.take_append_drop n hops] at hChain
  exact hChain.split

/- A chain can be cut at the hop that lands at a location. -/
theorem exists_hop_of_mem
    {l : Location}
    (hChain : store.Chain p hops stop)
    (hMem : l ∈ hops.map Hop.location) :
    ∃ before hop after p' q,
      hops = before ++ hop :: after
        ∧ hop.location = l
        ∧ store.Chain p before p'
        ∧ store.Hops p' hop q
        ∧ store.Chain q after stop := by
  rcases List.mem_map.mp hMem with ⟨hop, hHopMem, hLocation⟩
  rcases List.append_of_mem hHopMem with ⟨before, after, rfl⟩
  rcases hChain.split with ⟨p', hBefore, hRest⟩
  cases hRest with
  | cons hHop hAfter =>
      exact
        ⟨before, hop, after, p', _, rfl, hLocation, hBefore, hHop,
          hAfter⟩

/- The last hop of a chain. -/
theorem last_hop
    (hChain : store.Chain p (hops ++ [hop]) stop) :
    ∃ q, store.Chain p hops q ∧ store.Hops q hop stop := by
  rcases hChain.split with ⟨q, hHops, hLast⟩
  cases hLast with
  | cons hHop hNil =>
      cases hNil
      exact ⟨q, hHops, hHop⟩

/- Of two chains from one position, the longer extends the other. -/
theorem extends_of_length_le
    {hops' : List Hop}
    {stop' : Position}
    (hChain : store.Chain p hops stop)
    (hChain' : store.Chain p hops' stop')
    (hLength : hops.length ≤ hops'.length) :
    ∃ rest, hops' = hops ++ rest ∧ store.Chain stop rest stop' := by
  induction hChain generalizing hops' with
  | nil p => exact ⟨hops', rfl, hChain'⟩
  | cons hHop _ ih =>
      cases hChain' with
      | nil _ => simp at hLength
      | cons hHop' hTail' =>
          rcases hHop.unique hHop' with ⟨rfl, rfl⟩
          rcases ih hTail' (by simpa using hLength) with
            ⟨rest, rfl, hRest⟩
          exact ⟨rest, rfl, hRest⟩

/- A chain goes on only from references. -/
theorem exists_reference
    (hChain : store.Chain p hops stop)
    (hNonempty : hops ≠ []) :
    ∃ r, p.reference? = some r := by
  cases hChain with
  | nil _ => exact absurd rfl hNonempty
  | cons hHop _ => exact ⟨_, ((store.hops_iff_step ..).mp hHop).1⟩

end Chain

end Store

end DesignTokens

------------------------------------------------------------
-- Locations of a Chain
------------------------------------------------------------

namespace DesignTokens

namespace Store

variable {store : Store}
variable {p q stop : Position}
variable {hop : Hop} {hops : List Hop}

/- A reference lands at an addressable location. -/
theorem Lands.mem_locations
    {r : Reference}
    {scope : Scope}
    {l : Location}
    {node : Json}
    (hLands : store.Lands r scope l node) :
    l ∈ store.locations := by
  rw [mem_locations_iff]
  refine ⟨?_, node, hLands.node?_eq⟩
  rcases hLands with ⟨c, before, after, -, -, hMeans⟩
  cases hMeans with
  | dotted _ => exact Text.split_ne_nil '.' r.path
  | hyphenated _ _ => exact Text.split_ne_nil '-' r.path

theorem Chain.mem_locations
    (hChain : store.Chain p hops stop)
    {l : Location}
    (hMem : l ∈ hops.map Hop.location) :
    l ∈ store.locations := by
  induction hChain with
  | nil _ => simp at hMem
  | cons hHop _ ih =>
      rw [List.map_cons] at hMem
      rcases List.mem_cons.mp hMem with rfl | hMem
      · cases hHop with
        | intro _ hLands _ => exact hLands.mem_locations
      · exact ih hMem

/- The node at a location of a chain is one that can be entered. -/
theorem Chain.continues_of_mem
    (hChain : store.Chain p hops stop)
    {l : Location}
    (hMem : l ∈ hops.map Hop.location) :
    ∃ node hint value hint',
      store.node? l = some node ∧
        Continues node hint value hint' := by
  induction hChain with
  | nil _ => simp at hMem
  | cons hHop _ ih =>
      rw [List.map_cons] at hMem
      rcases List.mem_cons.mp hMem with rfl | hMem
      · cases hHop with
        | intro _ hLands hContinues =>
            exact ⟨_, _, _, _, hLands.node?_eq, hContinues⟩
      · exact ih hMem

/-
  A reference that lands again at a location of its chain can be
  followed from there, whatever hint is in force by then.
-/
theorem Chain.exists_hop_of_lands
    {r : Reference}
    {l : Location}
    {node : Json}
    (hChain : store.Chain p hops stop)
    (hReference : stop.reference? = some r)
    (hLands : store.Lands r stop.scope l node)
    (hMem : l ∈ hops.map Hop.location) :
    ∃ q, store.Hops stop ⟨r, l⟩ q := by
  rcases hChain.continues_of_mem hMem with
    ⟨node', hint, value, hint', hNode, hContinues⟩
  rw [hLands.node?_eq] at hNode
  cases hNode
  rcases hContinues.exists_of_hint stop.scope.hint with
    ⟨other, hOther⟩
  exact ⟨_, Hops.intro hReference hLands hOther⟩

end Store

end DesignTokens

------------------------------------------------------------
-- Trails
------------------------------------------------------------

namespace DesignTokens

namespace Store

/- A chain over pairwise distinct locations. -/
structure Trail
    (store : Store)
    (start : Position)
    (hops : List Hop)
    (stop : Position) : Prop where
  chain : store.Chain start hops stop
  distinct : (hops.map Hop.location).Nodup

namespace Trail

variable {store : Store}
variable {start stop q : Position}
variable {hop : Hop} {hops : List Hop}

/- The chain without hops is a trail. -/
theorem nil
    (store : Store)
    (start : Position) :
    store.Trail start [] start :=
  ⟨Chain.nil start, List.nodup_nil⟩

/- A hop to a new location makes a trail longer. -/
theorem snoc
    (hTrail : store.Trail start hops stop)
    (hHop : store.Hops stop hop q)
    (hNew : hop.location ∉ hops.map Hop.location) :
    store.Trail start (hops ++ [hop]) q := by
  refine ⟨hTrail.chain.append (Chain.single hHop), ?_⟩
  rw [List.map_append, List.nodup_append']
  refine ⟨hTrail.distinct, by simp, ?_⟩
  simpa using hNew

/- A hop from elsewhere goes before a trail. -/
theorem cons
    (hHop : store.Hops start hop q)
    (hTrail : store.Trail q hops stop)
    (hNew : hop.location ∉ hops.map Hop.location) :
    store.Trail start (hop :: hops) stop :=
  ⟨Chain.cons hHop hTrail.chain,
    List.nodup_cons.mpr ⟨hNew, hTrail.distinct⟩⟩

/-
  The beginning of a trail, up to the hop that lands at a
  location.
-/
theorem exists_hop_of_mem
    {l : Location}
    (hTrail : store.Trail start hops stop)
    (hMem : l ∈ hops.map Hop.location) :
    ∃ before hop p q,
      store.Trail start before p
        ∧ store.Hops p hop q
        ∧ hop.location = l
        ∧ before.length < hops.length
        ∧ l ∉ before.map Hop.location := by
  rcases hTrail.chain.exists_hop_of_mem hMem with
    ⟨before, hop, after, p, q, rfl, rfl, hBefore, hHop, -⟩
  have hDistinct := hTrail.distinct
  rw [List.map_append, List.nodup_append'] at hDistinct
  refine
    ⟨before, hop, p, q, ⟨hBefore, hDistinct.1⟩, hHop, rfl, by simp,
      ?_⟩
  intro hEarlier
  exact hDistinct.2.2 hEarlier (by simp)

/- The last hop of a trail, which lands at a new location. -/
theorem last_hop
    (hTrail : store.Trail start (hops ++ [hop]) stop) :
    ∃ p,
      store.Trail start hops p
        ∧ store.Hops p hop stop
        ∧ hop.location ∉ hops.map Hop.location := by
  rcases hTrail.chain.last_hop with ⟨p, hChain, hHop⟩
  have hDistinct := hTrail.distinct
  rw [List.map_append, List.nodup_append'] at hDistinct
  refine ⟨p, ⟨hChain, hDistinct.1⟩, hHop, ?_⟩
  intro hMem
  exact hDistinct.2.2 hMem (by simp)

/- A trail has no more hops than the store has locations. -/
theorem length_le_card
    (hTrail : store.Trail start hops stop) :
    hops.length ≤ store.locations.card := by
  have hSubset :
      (hops.map Hop.location).toFinset ⊆ store.locations := by
    intro l hMem
    exact hTrail.chain.mem_locations (List.mem_toFinset.mp hMem)
  calc
    hops.length = (hops.map Hop.location).toFinset.card := by
      rw [List.toFinset_card_of_nodup hTrail.distinct,
        List.length_map]
    _ ≤ store.locations.card := Finset.card_le_card hSubset

end Trail

end Store

end DesignTokens
