import DesignTokens.Proofs.Emission.Walk
import DesignTokens.Proofs.Reference.Outcome
import DesignTokens.Proofs.Reference.Syntax

/-
  This file compares how a record that cannot be read is reported
  where it stands and where a reference lands at it.

  Key theorems include:
    * `Store.defect_of_malformed`
    * `Store.malformed_target`
    * `Store.faultyTargets_stub`

  The walk takes an object that declares a type, and holds no
  value and no tokens, for a record that lacks its value.  A
  reference goes by the value alone and takes it for a namespace.
  They agree on every object that has a value.
-/

------------------------------------------------------------
-- Objects without a Value
------------------------------------------------------------

namespace DesignTokens

namespace Leaf

/- The walk takes an object without a value for a record. -/
theorem record_eq_missingValue
    {leaf : Leaf}
    (hObject : leaf.node.IsObject)
    (hIs : ¬ Record.IsRecord leaf.node) :
    leaf.record = .error .missingValue := by
  rw [record, if_neg hIs, if_pos hObject]

end Leaf

namespace Store

variable {store : Store}
variable {c : Collection}
variable {leaf : Leaf}

/- A leaf that is an object without a value declares its type. -/
theorem isStub_of_mem_leaves
    (hLeaf : leaf ∈ store.leaves c)
    (hObject : leaf.node.IsObject)
    (hIs : ¬ Record.IsRecord leaf.node) :
    leaf.node.IsStub := by
  rw [mem_leaves_iff, Json.leafBelow_iff] at hLeaf
  rcases hLeaf with ⟨-, -, hNot, -⟩
  by_contra hStub
  exact hNot ⟨hObject, hIs, hStub⟩

end Store

end DesignTokens

------------------------------------------------------------
-- Malformed Targets
------------------------------------------------------------

namespace DesignTokens

namespace Store

variable {store : Store}
variable {c : Collection}
variable {leaf : Leaf}
variable {e : RecordError}
variable {r : Reference}
variable {scope : Scope}

/-
  There is no hop to an object that cannot be read.  The record
  is at fault where there is a value, else the reference.
-/
theorem defect_of_malformed
    {l : Location}
    {node : Json}
    (hObject : node.IsObject)
    (hError : Record.ofJson node = .error e)
    (hLands : store.Lands r scope l node) :
    store.Defect r scope
      (if Record.IsRecord node then
        .malformedTarget r e
      else
        .notAToken r) := by
  split
  · next hIs => exact Defect.malformedTarget hLands hIs hError
  · next hIs => exact Defect.notAToken hLands hObject hIs

/-
  A reference that lands at a leaf whose record cannot be read
  reports the error of the record, if the leaf has a value.  A
  leaf without a value is a stub, whose error is that the value
  is missing, and the reference reports a namespace.  Every token
  whose chain comes to the reference within the limit is left out
  with what the reference reports, next to the leaf itself, which
  is left out with the error of its record.
-/
theorem malformed_target
    (hLeaf : leaf ∈ store.leaves c)
    (hObject : leaf.node.IsObject)
    (hError : leaf.record = .error e)
    (hWellFormed : r.IsWellFormed)
    (hLocate :
      store.locate? r scope = some (⟨c, leaf.path⟩, leaf.node)) :
    let fault : ResolveError :=
      if Record.IsRecord leaf.node then
        .malformedTarget r e
      else
        .notAToken r
    (∀ limit,
        1 ≤ limit →
          store.resolve limit (.text r.text) scope = .error fault)
      ∧ (¬ Record.IsRecord leaf.node →
          leaf.node.IsStub ∧ e = .missingValue)
      ∧ ∀ options d token record hops,
          token ∈ store.leaves d →
            token.record = .ok record →
              store.Trail ⟨record.value, ⟨d, record.hint⟩⟩ hops
                  ⟨.text r.text, scope⟩ →
                hops.length < options.limit →
                  (store.emit options).Reports c leaf.path
                      (.error (.malformed e))
                    ∧ (store.emit options).Reports d token.path
                        (.error
                          (.unresolved
                            (options.namer.identifier token.path d)
                            fault)) := by
  intro fault
  have hReference :
      Position.reference? ⟨.text r.text, scope⟩ = some r :=
    Reference.ofJson?_eq_some_iff.mpr ⟨hWellFormed, rfl⟩
  have hDefect : store.Defect r scope fault := by
    rw [Leaf.record_eq] at hError
    rw [locate?_eq_some_iff] at hLocate
    exact defect_of_malformed hObject hError hLocate
  refine ⟨?resolve, ?stub, ?reports⟩
  case resolve =>
    intro limit hLimit
    have hStart := Trail.nil store ⟨.text r.text, scope⟩
    exact
      (Outcome.defect hStart hLimit hReference hDefect).resolve_eq
  case stub =>
    intro hIs
    refine ⟨isStub_of_mem_leaves hLeaf hObject hIs, ?_⟩
    rw [Leaf.record_eq_missingValue hObject hIs] at hError
    cases hError
    rfl
  case reports =>
    intro options d token record hops hToken hRecord hTrail hLength
    have hResolve :
        store.resolveRecord options.limit record d = .error fault :=
      (Outcome.defect hTrail hLength hReference hDefect).resolve_eq
    exact
      ⟨(Fails.malformed hError).reports hLeaf,
        (Fails.unresolved hRecord hResolve).reports hToken⟩

/-
  A primitive that declares a type and nothing else, one whose
  type is a number, and two that refer to the latter in turn.
-/
def faultyTargets : Store where
  documents :=
    { primitives :=
        { root := .object [
            ("a", .object [("$type", .text "color")]),
            ("b", .object [
              ("$value", .text "#fff"), ("$type", .number 5)]),
            ("c", .object [("$value", .text "\x7bb\x7d")]),
            ("d", .object [("$value", .text "\x7bc\x7d")])]
          uniqueKeys := by
            simp [Json.UniqueKeys, Json.UniqueKeysMembers] }
      semantic := .empty
      component := .empty }
  isObject c := by cases c <;> rfl

/- The type is reported where it stands and at the end of a chain. -/
theorem faultyTargets_reported :
    let leaf : Leaf :=
      ⟨["b"], .object [("$value", .text "#fff"), ("$type", .number 5)]⟩
    let token : Leaf := ⟨["d"], .object [("$value", .text "\x7bc\x7d")]⟩
    let emission := faultyTargets.emit ⟨⟨"token"⟩, 10⟩
    leaf ∈ faultyTargets.leaves .primitives
      ∧ leaf.record = .error (.invalidType .number)
      ∧ faultyTargets.locate? ⟨"b"⟩ ⟨.primitives, none⟩ =
          some (⟨.primitives, leaf.path⟩, leaf.node)
      ∧ emission.Reports .primitives leaf.path
          (.error (.malformed (.invalidType .number)))
      ∧ emission.Reports .primitives token.path
          (.error
            (.unresolved "--token-primitive-d"
              (.malformedTarget ⟨"b"⟩ (.invalidType .number)))) := by
  intro leaf token emission
  have hLeaf : leaf ∈ faultyTargets.leaves .primitives :=
    List.mem_of_getElem? (i := 1) rfl
  have hToken : token ∈ faultyTargets.leaves .primitives :=
    List.mem_of_getElem? (i := 3) rfl
  have hWellFormed : (Reference.mk "b").IsWellFormed :=
    isSpellable_iff.mp (by decide)
  have hLocate :
      faultyTargets.locate? ⟨"b"⟩ ⟨.primitives, none⟩ =
        some (⟨.primitives, leaf.path⟩, leaf.node) := rfl
  have hHop :
      faultyTargets.Hops ⟨.text "\x7bc\x7d", ⟨.primitives, none⟩⟩
        ⟨⟨"c"⟩, ⟨.primitives, ["c"]⟩⟩
        ⟨.text "\x7bb\x7d", ⟨.primitives, none⟩⟩ :=
    (hops_iff_step ..).mpr ⟨rfl, rfl⟩
  have hTrail := Trail.cons hHop (Trail.nil _ _) (by simp)
  have hReports :=
    (malformed_target hLeaf rfl rfl hWellFormed hLocate).2.2
      ⟨⟨"token"⟩, 10⟩ .primitives token _ _ hToken rfl hTrail (by decide)
  have hIs : Record.IsRecord leaf.node := by decide
  have hName :
      Namer.identifier ⟨"token"⟩ token.path .primitives =
        "--token-primitive-d" := by
    decide +kernel
  simp only [if_pos hIs, hName] at hReports
  exact ⟨hLeaf, rfl, hLocate, hReports⟩

/-
  The first one lacks its value, and a reference to it says that
  it is a namespace.
-/
theorem faultyTargets_stub :
    let leaf : Leaf := ⟨["a"], .object [("$type", .text "color")]⟩
    let scope : Scope := ⟨.primitives, none⟩
    leaf ∈ faultyTargets.leaves .primitives
      ∧ leaf.node.IsObject
      ∧ leaf.record = .error .missingValue
      ∧ faultyTargets.locate? ⟨"a"⟩ scope =
          some (⟨.primitives, leaf.path⟩, leaf.node)
      ∧ faultyTargets.resolve 10 (.text "\x7ba\x7d") scope =
          .error (.notAToken ⟨"a"⟩)
      ∧ faultyTargets.resolve 10 (.text "\x7ba\x7d") scope ≠
          .error (.malformedTarget ⟨"a"⟩ .missingValue) := by
  intro leaf scope
  have hResolve :
      faultyTargets.resolve 10 (.text "\x7ba\x7d") scope =
        .error (.notAToken ⟨"a"⟩) := rfl
  refine ⟨List.mem_of_getElem? (i := 0) rfl, rfl, rfl, rfl, hResolve, ?_⟩
  rw [hResolve]
  simp

end Store

end DesignTokens
