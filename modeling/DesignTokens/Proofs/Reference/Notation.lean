import DesignTokens.Proofs.Reference.Revisit

/-
  This file compares the dotted and the hyphenated notation of
  one path.

  Key definitions include:
    * `IsSegment`
    * `Reference.joined`
    * `Respelled`

  Key theorems include:
    * `Store.meaning?_joined`
    * `Store.resolve_respelled`
    * `Store.notations_agree`

  The path is the first reading of the one notation and the
  second of the other.  The remaining reading of each is a
  single key, the whole text, which means something only where
  a document has that key at its top.  References that land
  alike go on alike, and what they come to differs in the name
  of the first reference at most.
-/

------------------------------------------------------------
-- Notations
------------------------------------------------------------

namespace DesignTokens

/- A key that either notation can have between its separators. -/
def IsSegment (s : String) : Prop :=
  s ≠ "" ∧
    ∀ c ∈ s.toList, Reference.isPathChar c = true ∧ c ≠ '.' ∧ c ≠ '-'

instance (s : String) : Decidable (IsSegment s) :=
  decidable_of_decidable_of_iff
    (p := s ≠ "" ∧
      s.toList.all (fun c =>
        Reference.isPathChar c && c != '.' && c != '-') = true)
    (by simp [IsSegment, and_assoc])

namespace Reference

/- The reference with segments between separators. -/
def joined
    (sep : Char)
    (segments : List String) : Reference :=
  ⟨Text.join sep segments⟩

variable {sep : Char}
variable {segments : List String}

/- Its characters are the separator and those of its segments. -/
theorem eq_or_mem_of_mem_joined
    {c : Char}
    (hMem : c ∈ (joined sep segments).path.toList) :
    c = sep ∨ ∃ s ∈ segments, c ∈ s.toList := by
  rw [joined, Text.join, String.toList_ofList] at hMem
  rcases Text.eq_or_mem_of_mem_joinChars hMem with
    rfl | ⟨piece, hPiece, hIn⟩
  · exact Or.inl rfl
  · rcases List.mem_map.mp hPiece with ⟨s, hSegment, rfl⟩
    exact Or.inr ⟨s, hSegment, hIn⟩

/- Texts that make references by themselves make one together. -/
theorem isWellFormed_joined_of_each
    (hSome : segments ≠ [])
    (hEach : ∀ s ∈ segments, (Reference.mk s).IsWellFormed)
    (hSep : isPathChar sep = true) :
    (joined sep segments).IsWellFormed := by
  constructor
  · rcases List.exists_mem_of_ne_nil segments hSome with ⟨s, hMem⟩
    have hInfix :
        s.toList <:+: Text.joinChars sep (segments.map String.toList) :=
      Text.isInfix_joinChars sep (List.mem_map_of_mem hMem)
    intro hEmpty
    rw [joined, Text.join, ← String.toList_inj, String.toList_ofList]
      at hEmpty
    rw [hEmpty] at hInfix
    exact
      (hEach s hMem).1
        (String.toList_eq_nil_iff.mp (List.infix_nil.mp hInfix))
  · intro c hMem
    rcases eq_or_mem_of_mem_joined hMem with rfl | ⟨s, hSegment, hIn⟩
    · exact hSep
    · exact (hEach s hSegment).2 c hIn

/- Segments make a reference that can be read. -/
theorem isWellFormed_joined
    (hSome : segments ≠ [])
    (hSegments : ∀ s ∈ segments, IsSegment s)
    (hSep : isPathChar sep = true) :
    (joined sep segments).IsWellFormed := by
  apply isWellFormed_joined_of_each hSome _ hSep
  intro s hMem
  rcases hSegments s hMem with ⟨hNe, hChars⟩
  exact ⟨hNe, fun c hIn => (hChars c hIn).1⟩

/- Splitting at the separator gives the segments back. -/
theorem split_joined
    (hSome : segments ≠ [])
    (hFree : ∀ s ∈ segments, sep ∉ s.toList) :
    Text.split sep (joined sep segments).path = segments :=
  Text.split_join hSome hFree

/- Splitting at another character keeps the text whole. -/
theorem split_joined_of_ne
    {other : Char}
    (hOther : other ≠ sep)
    (hFree : ∀ s ∈ segments, other ∉ s.toList) :
    Text.split other (joined sep segments).path =
      [(joined sep segments).path] := by
  apply Text.split_of_notMem
  intro hMem
  rcases eq_or_mem_of_mem_joined hMem with hSep | ⟨s, hSegment, hIn⟩
  · exact hOther hSep
  · exact hFree s hSegment hIn

end Reference

end DesignTokens

------------------------------------------------------------
-- Where Notations Land
------------------------------------------------------------

namespace DesignTokens

namespace Store

variable {store : Store}
variable {segments : List String}
variable {scope : Scope}

/- A key that a document does not have at its top leads nowhere. -/
theorem node?_singleton_eq_none
    {c : Collection}
    {key : String}
    (hKey : key ∉ (store.tree c).keys) :
    store.node? ⟨c, [key]⟩ = none := by
  rw [Option.eq_none_iff_forall_ne_some]
  intro node hNode
  rcases Json.descend?_cons_eq_some_iff.mp hNode with
    ⟨-, child, hGet, -⟩
  exact hKey (List.mem_map.mpr ⟨_, Json.mem_of_lookup hGet, rfl⟩)

/- Either notation means what its segments lead to. -/
theorem meaning?_joined
    {c : Collection}
    {sep : Char}
    (hSep : sep = '.' ∨ sep = '-')
    (hSome : segments ≠ [])
    (hSegments : ∀ s ∈ segments, IsSegment s)
    (hKey :
      (Reference.joined sep segments).path ∉ (store.tree c).keys) :
    store.meaning? (Reference.joined sep segments) c =
      (store.node? ⟨c, segments⟩).map fun node =>
        (⟨c, segments⟩, node) := by
  have hDot (s : String) (hMem : s ∈ segments) : '.' ∉ s.toList :=
    fun hDot => ((hSegments s hMem).2 _ hDot).2.1 rfl
  have hHyphen (s : String) (hMem : s ∈ segments) : '-' ∉ s.toList :=
    fun hHyphen => ((hSegments s hMem).2 _ hHyphen).2.2 rfl
  have hNone := node?_singleton_eq_none hKey
  rw [meaning?_eq, Reference.dottedReading, Reference.hyphenatedReading]
  rcases hSep with rfl | rfl
  · rw [Reference.split_joined hSome hDot,
      Reference.split_joined_of_ne (by decide) hHyphen, hNone,
      Option.map_none, Option.or_none]
  · rw [Reference.split_joined hSome hHyphen,
      Reference.split_joined_of_ne (by decide) hDot, hNone,
      Option.map_none, Option.none_or]

/- References that mean the same in every layer land alike. -/
theorem locate?_congr
    {r r' : Reference}
    (hMeaning :
      ∀ c ∈ scope.searchOrder,
        store.meaning? r c = store.meaning? r' c) :
    store.locate? r scope = store.locate? r' scope := by
  rw [locate?_eq_findSome?, locate?_eq_findSome?]
  generalize scope.searchOrder = layers at hMeaning
  induction layers with
  | nil => rfl
  | cons c layers ih =>
      rw [List.forall_mem_cons] at hMeaning
      rw [List.findSome?_cons, List.findSome?_cons, hMeaning.1,
        ih hMeaning.2]

end Store

end DesignTokens

------------------------------------------------------------
-- Respelled Results
------------------------------------------------------------

namespace DesignTokens

/-
  Results that differ at most in how an error names the first
  reference of its chain.
-/
inductive Respelled
    (r r' : Reference) :
    Except ResolveError Literal →
      Except ResolveError Literal → Prop
| same (result : Except ResolveError Literal) :
    Respelled r r' result result
| notFound (searched : List Collection) :
    Respelled r r'
      (.error (.notFound r searched)) (.error (.notFound r' searched))
| cycle (l : Location) (rest : List Hop) :
    Respelled r r'
      (.error (.cycle (⟨r, l⟩ :: rest)))
      (.error (.cycle (⟨r', l⟩ :: rest)))
| depthExceeded (limit : Nat) :
    Respelled r r'
      (.error (.depthExceeded r limit))
      (.error (.depthExceeded r' limit))
| notAToken :
    Respelled r r' (.error (.notAToken r)) (.error (.notAToken r'))
| malformedTarget (cause : RecordError) :
    Respelled r r'
      (.error (.malformedTarget r cause))
      (.error (.malformedTarget r' cause))

namespace Store

variable {store : Store}
variable {limit : Nat}
variable {r r' : Reference}
variable {scope : Scope}
variable {segments : List String}

/- A chain depends on where its first hop landed, not on its name. -/
theorem follow_respelled
    (l : Location)
    (remaining : Nat)
    (rest : List Hop)
    (raw : Json)
    (scope : Scope) :
    Respelled r r'
      (store.follow limit remaining (⟨r, l⟩ :: rest) raw scope)
      (store.follow limit remaining (⟨r', l⟩ :: rest) raw scope) := by
  induction remaining generalizing rest raw scope with
  | zero =>
      rw [follow, follow]
      exact Respelled.same _
  | succ remaining ih =>
      rw [follow, follow]
      cases Reference.ofJson? raw with
      | none => exact Respelled.same _
      | some next =>
          dsimp only
          cases store.step next scope with
          | error e => exact Respelled.same _
          | ok landing =>
              -- Both trails hold the same locations.
              simp only [List.map_cons, List.cons_append]
              split
              · exact Respelled.cycle l _
              · exact ih _ _ _

/- Entering a node fails alike for all that land there. -/
theorem enter_respelled
    (r r' : Reference)
    (hint : Option Collection)
    (node : Json) :
    enter r hint node = enter r' hint node
      ∨ (enter r hint node = .error (.notAToken r)
        ∧ enter r' hint node = .error (.notAToken r'))
      ∨ ∃ cause,
          enter r hint node = .error (.malformedTarget r cause)
            ∧ enter r' hint node =
                .error (.malformedTarget r' cause) := by
  unfold enter
  split
  · cases Record.ofJson node with
    | error cause => exact Or.inr (Or.inr ⟨cause, rfl, rfl⟩)
    | ok record => exact Or.inl rfl
  · split
    · exact Or.inr (Or.inl ⟨rfl, rfl⟩)
    · exact Or.inl rfl

/- References that land alike come to the same, respelled. -/
theorem resolve_respelled
    (hWellFormed : r.IsWellFormed)
    (hWellFormed' : r'.IsWellFormed)
    (hLocate : store.locate? r scope = store.locate? r' scope) :
    Respelled r r'
      (store.resolve limit (.text r.text) scope)
      (store.resolve limit (.text r'.text) scope) := by
  have hRead := Reference.ofJson?_eq_some_iff.mpr ⟨hWellFormed, rfl⟩
  have hRead' := Reference.ofJson?_eq_some_iff.mpr ⟨hWellFormed', rfl⟩
  unfold resolve
  cases limit with
  | zero =>
      rw [follow, follow, hRead, hRead']
      exact Respelled.depthExceeded 0
  | succ limit =>
      rw [follow, follow, hRead, hRead']
      simp only [step, hLocate]
      cases store.locate? r' scope with
      | none => exact Respelled.notFound _
      | some found =>
          obtain ⟨l, node⟩ := found
          rcases enter_respelled r r' scope.hint node with
            hSame | ⟨hError, hError'⟩ | ⟨cause, hError, hError'⟩
          · simp only [hSame]
            cases enter r' scope.hint node with
            | error e => exact Respelled.same _
            | ok entered =>
                simpa using
                  follow_respelled l limit [] entered.1
                    ⟨l.collection, entered.2⟩
          · simp only [hError, hError']
            exact Respelled.notAToken
          · simp only [hError, hError']
            exact Respelled.malformedTarget cause

/-
  The dotted and the hyphenated notation of a path are
  equivalent, unless a layer of the search has one of the two
  texts as a key at its top.  Both can be read, both land at the
  same node of the same layer or nowhere, and both come to the
  same literal or to errors that differ in the name of the first
  reference at most.
-/
theorem notations_agree
    (limit : Nat)
    (hSome : segments ≠ [])
    (hSegments : ∀ s ∈ segments, IsSegment s)
    (hUnshadowed :
      ∀ c ∈ scope.searchOrder,
        Text.join '.' segments ∉ (store.tree c).keys
          ∧ Text.join '-' segments ∉ (store.tree c).keys) :
    let r := Reference.joined '.' segments
    let r' := Reference.joined '-' segments
    Reference.parse? r.text = some r
      ∧ Reference.parse? r'.text = some r'
      ∧ store.locate? r scope = store.locate? r' scope
      ∧ Respelled r r'
          (store.resolve limit (.text r.text) scope)
          (store.resolve limit (.text r'.text) scope) := by
  have hDotted : (Reference.joined '.' segments).IsWellFormed :=
    Reference.isWellFormed_joined hSome hSegments (by decide)
  have hHyphenated : (Reference.joined '-' segments).IsWellFormed :=
    Reference.isWellFormed_joined hSome hSegments (by decide)
  have hLocate :
      store.locate? (Reference.joined '.' segments) scope =
        store.locate? (Reference.joined '-' segments) scope := by
    apply locate?_congr
    intro c hLayer
    rw [meaning?_joined (Or.inl rfl) hSome hSegments
        (hUnshadowed c hLayer).1,
      meaning?_joined (Or.inr rfl) hSome hSegments
        (hUnshadowed c hLayer).2]
  exact
    ⟨Reference.parse?_eq_some_iff.mpr ⟨hDotted, rfl⟩,
      Reference.parse?_eq_some_iff.mpr ⟨hHyphenated, rfl⟩, hLocate,
      resolve_respelled hDotted hHyphenated hLocate⟩

/-
  The two notations of a token that points at itself: each comes
  back to its node, under the name that the token uses.
-/
theorem respelledSelf_notations_agree :
    (∀ s ∈ ["a", "b"], IsSegment s)
      ∧ (∀ c ∈ Scope.searchOrder ⟨.primitives, none⟩,
          Text.join '.' ["a", "b"] ∉ (respelledSelf.tree c).keys
            ∧ Text.join '-' ["a", "b"] ∉ (respelledSelf.tree c).keys)
      ∧ Respelled
          (Reference.joined '.' ["a", "b"])
          (Reference.joined '-' ["a", "b"])
          (respelledSelf.resolve 10 (.text "\x7ba.b\x7d")
            ⟨.primitives, none⟩)
          (respelledSelf.resolve 10 (.text "\x7ba-b\x7d")
            ⟨.primitives, none⟩)
      ∧ respelledSelf.resolve 10 (.text "\x7ba.b\x7d")
            ⟨.primitives, none⟩ =
          .error (.cycle respelledChain)
      ∧ respelledSelf.resolve 10 (.text "\x7ba-b\x7d")
            ⟨.primitives, none⟩ =
          .error (.cycle [
            ⟨⟨"a-b"⟩, ⟨.primitives, ["a", "b"]⟩⟩,
            ⟨⟨"a-b"⟩, ⟨.primitives, ["a", "b"]⟩⟩]) := by
  have hSegments : ∀ s ∈ ["a", "b"], IsSegment s := by decide
  have hUnshadowed :
      ∀ c ∈ Scope.searchOrder ⟨.primitives, none⟩,
        Text.join '.' ["a", "b"] ∉ (respelledSelf.tree c).keys
          ∧ Text.join '-' ["a", "b"] ∉ (respelledSelf.tree c).keys := by
    decide
  have hAgree :=
    (notations_agree 10 (by decide) hSegments hUnshadowed).2.2.2
  exact ⟨hSegments, hUnshadowed, hAgree, rfl, rfl⟩

end Store

end DesignTokens
