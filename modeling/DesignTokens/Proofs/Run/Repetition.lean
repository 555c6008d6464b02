import DesignTokens.Proofs.Files.Rewriting
import DesignTokens.Proofs.Run.Build

/-
  This file tells what a second run makes of the files that a
  first one has left.

  Key definitions include:
    * `SameFrom`

  Key theorems include:
    * `compile_same`
    * `runOn_build_eq_ok_iff`
    * `build_again`
    * `build_repeatable`

  A run reads its three sources and nothing else, so it repeats
  itself as long as they read the same.  They do unless the
  output takes the place of one of them.
-/

------------------------------------------------------------
-- Actions from Two States
------------------------------------------------------------

namespace DesignTokens

variable {σ ε ε' α β : Type}

/- What an action went on with when it succeeded. -/
theorem runOn_bind_eq_ok
    {action : ExceptT ε (StateM σ) α}
    {next : α → ExceptT ε (StateM σ) β}
    {s s'' : σ}
    {b : β}
    (hRun : runOn (action >>= next) s = (.ok b, s'')) :
    ∃ a s',
      runOn action s = (.ok a, s')
        ∧ runOn (next a) s' = (.ok b, s'') := by
  rw [runOn_bind] at hRun
  split at hRun
  · next a s' hAction => exact ⟨a, s', hAction, hRun⟩
  · simp at hRun

/- Telling errors in another way changes errors only. -/
theorem runOn_adapt
    (f : ε → ε')
    (action : ExceptT ε (StateM σ) α)
    (s : σ) :
    runOn (ExceptT.adapt f action) s =
      ((runOn action s).1.mapError f, (runOn action s).2) :=
  rfl

/- So it does not make a success. -/
theorem runOn_adapt_eq_ok
    {action : ExceptT ε (StateM σ) α}
    {f : ε → ε'}
    {s s' : σ}
    {a : α}
    (hRun : runOn (ExceptT.adapt f action) s = (.ok a, s')) :
    runOn action s = (.ok a, s') := by
  rw [runOn_adapt] at hRun
  generalize runOn action s = outcome at hRun ⊢
  rcases outcome with ⟨result, left⟩
  rcases Prod.mk.inj hRun with ⟨hResult, rfl⟩
  cases result with
  | ok a' =>
      cases hResult
      rfl
  | error e => cases hResult

/- An action gives the same from two states and leaves both. -/
def SameFrom
    (s s' : σ)
    (action : ExceptT ε (StateM σ) α) : Prop :=
  ∃ result, runOn action s = (result, s) ∧ runOn action s' = (result, s')

namespace SameFrom

variable {s s' : σ}
variable {action : ExceptT ε (StateM σ) α}

theorem bind
    {next : α → ExceptT ε (StateM σ) β}
    (hAction : SameFrom s s' action)
    (hNext : ∀ a, SameFrom s s' (next a)) :
    SameFrom s s' (action >>= next) := by
  rcases hAction with ⟨result, hLeft, hRight⟩
  cases result with
  | ok a =>
      rcases hNext a with ⟨result, hLeft', hRight'⟩
      refine ⟨result, ?_, ?_⟩
      · rw [runOn_bind, hLeft]
        exact hLeft'
      · rw [runOn_bind, hRight]
        exact hRight'
  | error e =>
      refine ⟨.error e, ?_, ?_⟩
      · rw [runOn_bind, hLeft]
      · rw [runOn_bind, hRight]

theorem pure (a : α) :
    SameFrom s s' (pure a : ExceptT ε (StateM σ) α) :=
  ⟨.ok a, rfl, rfl⟩

theorem throw (e : ε) :
    SameFrom s s' (throw e : ExceptT ε (StateM σ) α) :=
  ⟨.error e, rfl, rfl⟩

theorem settledAs (result : Except ε α) :
    SameFrom s s' (settledAs result : ExceptT ε (StateM σ) α) := by
  cases result with
  | ok a => exact SameFrom.pure a
  | error e => exact SameFrom.throw e

theorem adapt
    (f : ε → ε')
    (hAction : SameFrom s s' action) :
    SameFrom s s' (ExceptT.adapt f action) := by
  rcases hAction with ⟨result, hLeft, hRight⟩
  refine ⟨result.mapError f, ?_, ?_⟩
  · rw [runOn_adapt, hLeft]
  · rw [runOn_adapt, hRight]

end SameFrom

end DesignTokens

------------------------------------------------------------
-- Runs from Two Trees
------------------------------------------------------------

namespace DesignTokens

variable {t t' t₁ : FileTree}

/- Loading a document gives the same from the same text. -/
theorem Document.load_same
    (c : Collection)
    {path : String}
    (hText : t'.readText? path = t.readText? path) :
    SameFrom t t'
      (Document.load c path : ExceptT LoadError (StateM FileTree) _) := by
  refine SameFrom.bind ⟨.ok (t.readText? path), rfl, ?_⟩ fun text => ?_
  · rw [← hText]
    rfl
  · cases text with
    | none => exact SameFrom.throw _
    | some text => exact SameFrom.settledAs _

/- Compiling gives the same from sources that read the same. -/
theorem compile_same
    (config : Config)
    (hTexts :
      ∀ c, t'.readText? (config.sources.get c) =
        t.readText? (config.sources.get c)) :
    SameFrom t t'
      (compile config : ExceptT RunError (StateM FileTree) _) := by
  refine
    SameFrom.bind (SameFrom.adapt _ (SameFrom.settledAs _)) fun _ => ?_
  refine SameFrom.bind (SameFrom.adapt _ ?_) fun store => SameFrom.pure _
  refine
    SameFrom.bind (Document.load_same .primitives (hTexts .primitives))
      fun primitives => ?_
  refine
    SameFrom.bind (Document.load_same .semantic (hTexts .semantic))
      fun semantic => ?_
  refine
    SameFrom.bind (Document.load_same .component (hTexts .component))
      fun component => ?_
  exact SameFrom.settledAs _

/- A document that was loaded has a text, and no file changed. -/
theorem Document.load_eq_ok
    {c : Collection}
    {path : String}
    {document : Document}
    (hLoad :
      runOn (Document.load c path : ExceptT LoadError (StateM FileTree) _)
          t =
        (.ok document, t₁)) :
    t₁ = t ∧ ∃ text, t.readText? path = some text := by
  have hIdle := Document.load_idle FileTree.orderly c path t
  rw [hLoad] at hIdle
  refine ⟨hIdle, ?_⟩
  cases hText : t.readText? path with
  | some text => exact ⟨text, rfl⟩
  | none =>
      rcases runOn_bind_eq_ok hLoad with ⟨text, s, hRead, hNext⟩
      have hSame : text = t.readText? path := by
        cases hRead
        rfl
      rw [hSame, hText] at hNext
      cases hNext

/- What was compiled had a text for each of its sources. -/
theorem exists_text_of_compile
    {config : Config}
    {emission : Emission}
    (hCompile :
      runOn (compile config : ExceptT RunError (StateM FileTree) _) t =
        (.ok emission, t₁))
    (c : Collection) :
    ∃ text, t.readText? (config.sources.get c) = some text := by
  rcases runOn_bind_eq_ok hCompile with ⟨_, s, hCheck, hRest⟩
  have hIdle :=
    Idle.settledAs (σ := FileTree) config.check t
  rw [runOn_adapt_eq_ok hCheck] at hIdle
  obtain rfl : s = t := hIdle
  rcases runOn_bind_eq_ok hRest with ⟨store, _, hStore, -⟩
  have hLoad := runOn_adapt_eq_ok hStore
  rcases runOn_bind_eq_ok hLoad with ⟨_, _, hFirst, hUpper⟩
  rcases Document.load_eq_ok hFirst with ⟨rfl, hPrimitives⟩
  rcases runOn_bind_eq_ok hUpper with ⟨_, _, hSecond, hLast⟩
  rcases Document.load_eq_ok hSecond with ⟨rfl, hSemantic⟩
  rcases runOn_bind_eq_ok hLast with ⟨_, _, hThird, -⟩
  rcases Document.load_eq_ok hThird with ⟨rfl, hComponent⟩
  cases c with
  | primitives => exact hPrimitives
  | semantic => exact hSemantic
  | component => exact hComponent

end DesignTokens

------------------------------------------------------------
-- Building Again
------------------------------------------------------------

namespace DesignTokens

variable {t t' : FileTree}
variable {config : Config}
variable {b : Build}

/- Once compiled, a build is the writing of its document. -/
theorem runOn_build
    {emission : Emission}
    {ok : Bool}
    (hCompile : runOn (compile config) t = (.ok emission, t))
    (hOutcome :
      t.writeText config.output
          (emission.render config.renderOptions) =
        (ok, t')) :
    runOn (build config) t =
      (if ok then
        .ok
          ⟨emission, config.output,
            emission.render config.renderOptions⟩
      else
        .error (.unwritable config.output),
        t') := by
  rw [FileTree.writeText] at hOutcome
  rw [build, runOn_bind, hCompile]
  dsimp only
  rw [runOn_bind, runOn_lift, hOutcome]
  cases ok <;> rfl

/- Both halves of a build that succeeds. -/
theorem runOn_build_eq_ok_iff :
    runOn (build config) t = (.ok b, t') ↔
      runOn (compile config) t = (.ok b.emission, t)
        ∧ b.output = config.output
        ∧ b.document = b.emission.render config.renderOptions
        ∧ t.writeText config.output b.document = (true, t') := by
  constructor
  · intro hBuild
    rcases runOn_bind_eq_ok hBuild with ⟨emission, s, hCompile, -⟩
    have hIdle := compile_idle FileTree.orderly config t
    rw [hCompile] at hIdle
    obtain rfl : s = t := hIdle
    generalize hOutcome :
      s.writeText config.output (emission.render config.renderOptions) =
        outcome
    rcases outcome with ⟨ok, left⟩
    rw [runOn_build hCompile hOutcome] at hBuild
    cases ok with
    | false => simp at hBuild
    | true =>
        cases hBuild
        exact ⟨hCompile, rfl, rfl, hOutcome⟩
  · intro hHalves
    rcases b with ⟨emission, output, document⟩
    rcases hHalves with ⟨hCompile, hOutput, hDocument, hWritten⟩
    dsimp only at hCompile hOutput hDocument hWritten
    subst hOutput hDocument
    exact runOn_build hCompile hWritten

/- A document that was written stands where its path leads. -/
theorem FileTree.writtenAt_of_writeText
    {path content : String}
    (hWritten : t.writeText path content = (true, t')) :
    ∃ place, t.WrittenAt t' path content place := by
  have hWrites := FileTree.orderly.writes_writeDocument path content t
  dsimp only [id_eq] at hWrites
  rw [← FileTree.writeText, hWritten] at hWrites
  cases hWrites with
  | written hWrittenAt => exact ⟨_, hWrittenAt⟩

/- A build repeats itself from sources that read the same. -/
theorem build_again
    (hBuild : runOn (build config) t = (.ok b, t'))
    (hTexts :
      ∀ c, t'.readText? (config.sources.get c) =
        t.readText? (config.sources.get c)) :
    ∃ t'', runOn (build config) t' = (.ok b, t'') ∧ t'.Same t'' := by
  rcases runOn_build_eq_ok_iff.mp hBuild with
    ⟨hCompile, hOutput, hDocument, hWritten⟩
  rcases FileTree.writeText_again hWritten with ⟨t'', hAgain, hSame⟩
  rcases compile_same config hTexts with ⟨result, hFirst, hSecond⟩
  rw [hCompile] at hFirst
  cases hFirst
  refine ⟨t'', ?_, hSame⟩
  exact runOn_build_eq_ok_iff.mpr ⟨hSecond, hOutput, hDocument, hAgain⟩

/-
  What two builds make of the sources.  A source at the place of
  the output becomes the output document, and all others keep
  their texts.  So when no source is at that place, or when it
  held the document already, every source reads the same
  afterwards, and a second build succeeds with the same result
  and leaves the files as they are.
-/
theorem build_repeatable
    (hBuild : runOn (build config) t = (.ok b, t')) :
    (∀ c,
      t'.Meet config.output (config.sources.get c) →
        t'.readText? (config.sources.get c) = some b.document)
      ∧ (∀ c,
          ¬ t'.Meet config.output (config.sources.get c) →
            t'.readText? (config.sources.get c) =
              t.readText? (config.sources.get c))
      ∧ ((∀ c,
            t'.Meet config.output (config.sources.get c) →
              t.readText? (config.sources.get c) = some b.document) →
          (∀ c,
            t'.readText? (config.sources.get c) =
              t.readText? (config.sources.get c))
            ∧ ∃ t'',
                runOn (build config) t' = (.ok b, t'')
                  ∧ t'.Same t'') := by
  rcases runOn_build_eq_ok_iff.mp hBuild with ⟨hCompile, -, -, hWrites⟩
  rcases FileTree.writtenAt_of_writeText hWrites with ⟨place, hWritten⟩
  have hMet (c : Collection)
      (hMeet : t'.Meet config.output (config.sources.get c)) :
      t'.readText? (config.sources.get c) = some b.document :=
    hWritten.readText?_eq_content hMeet
  have hKept (c : Collection)
      (hApart : ¬ t'.Meet config.output (config.sources.get c)) :
      t'.readText? (config.sources.get c) =
        t.readText? (config.sources.get c) := by
    rcases exists_text_of_compile hCompile c with ⟨text, hText⟩
    rw [hText]
    exact hWritten.readText?_eq hText hApart
  refine ⟨hMet, hKept, fun hHeld => ?_⟩
  have hTexts (c : Collection) :
      t'.readText? (config.sources.get c) =
        t.readText? (config.sources.get c) := by
    by_cases hMeet : t'.Meet config.output (config.sources.get c)
    · exact (hMet c hMeet).trans (hHeld c hMeet).symm
    · exact hKept c hMeet
  exact ⟨hTexts, build_again hBuild hTexts⟩

/- A build whose output is apart from its sources repeats itself. -/
theorem besideDocuments_repeatable :
    ∃ b t',
      runOn (build besideDocuments) emptyDocuments = (.ok b, t')
        ∧ (∀ c,
            ¬ t'.Meet "dist/tokens.json" (besideDocuments.sources.get c))
        ∧ ∃ t'',
            runOn (build besideDocuments) t' = (.ok b, t'')
              ∧ t'.Same t'' := by
  have hOk :
      (runOn (build besideDocuments) emptyDocuments).1.isOk = true := by
    decide +kernel
  have hApart :
      ∀ c ∈ Collection.all,
        ¬ (runOn (build besideDocuments) emptyDocuments).2.Meet
          "dist/tokens.json" (besideDocuments.sources.get c) := by
    decide +kernel
  generalize hRun : runOn (build besideDocuments) emptyDocuments = outcome
    at hOk hApart
  rcases outcome with ⟨result, t'⟩
  cases result with
  | error e => simp [Except.isOk, Except.toBool] at hOk
  | ok b =>
      have hNone (c : Collection) := hApart c (Collection.mem_all c)
      refine ⟨b, t', rfl, hNone, ?_⟩
      apply ((build_repeatable hRun).2.2 ?_).2
      intro c hMeet
      exact absurd hMeet (hNone c)

/- A run that writes its stylesheet over its primitives. -/
def overDocuments : Config :=
  { besideDocuments with
    output := "primitives.json"
    format := .css }

/- It succeeds once: its source is gone when it runs again. -/
theorem overDocuments_not_repeatable :
    (runOn (build overDocuments) emptyDocuments).1.isOk = true
      ∧ emptyDocuments.readText? "primitives.json" = some "\x7b\x7d"
      ∧ (runOn (build overDocuments) emptyDocuments).2.readText?
            "primitives.json" ≠
          some "\x7b\x7d"
      ∧ (runOn (build overDocuments)
            (runOn (build overDocuments) emptyDocuments).2).1.toOption =
          none := by
  decide +kernel

end DesignTokens
