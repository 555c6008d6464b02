import DesignTokens.Proofs.Files.Tree
import DesignTokens.Run.Basic

/-
  This file tells what runs do to the files.

  Key definitions include:
    * `runOn`
    * `Idle`
    * `Files.Orderly`
    * `BuildsTo`

  Key theorems include:
    * `FileTree.orderly`
    * `Files.Orderly.writes_writeDocument`
    * `compile_idle`
    * `buildsTo_runOn`
    * `build_touches_output_only`

  Everything before the writing only reads, so a run that stops
  early leaves no trace.  What a run leaves otherwise is what
  the system makes of writing one document.
-/

------------------------------------------------------------
-- Running Actions
------------------------------------------------------------

namespace DesignTokens

variable {σ ε ε' α β : Type}

/- What an action gives from a state, and the state it leaves. -/
def runOn
    (action : ExceptT ε (StateM σ) α)
    (s : σ) : Except ε α × σ :=
  (action.run.run s).run

/- An action goes on from where the one before it left off. -/
theorem runOn_bind
    (action : ExceptT ε (StateM σ) α)
    (next : α → ExceptT ε (StateM σ) β)
    (s : σ) :
    runOn (action >>= next) s =
      match runOn action s with
      | (.ok a, s') => runOn (next a) s'
      | (.error e, s') => (.error e, s') := by
  simp only [runOn, ExceptT.run_bind, StateT.run_bind, Id.run_bind]
  generalize (StateT.run (ExceptT.run action) s).run = outcome
  rcases outcome with ⟨result, s'⟩
  cases result <;> rfl

/- An action of the system cannot fail by itself. -/
theorem runOn_lift
    (action : StateM σ α)
    (s : σ) :
    runOn (liftM action : ExceptT ε (StateM σ) α) s =
      (.ok (action.run s).run.1, (action.run s).run.2) :=
  rfl

/- Actions that leave the state as it is, whatever they give. -/
def Idle (action : ExceptT ε (StateM σ) α) : Prop :=
  ∀ s, (runOn action s).2 = s

namespace Idle

variable {action : ExceptT ε (StateM σ) α}

theorem bind
    {next : α → ExceptT ε (StateM σ) β}
    (hAction : Idle action)
    (hNext : ∀ a, Idle (next a)) :
    Idle (action >>= next) := by
  intro s
  have hLeft := hAction s
  rw [runOn_bind]
  generalize runOn action s = outcome at hLeft ⊢
  rcases outcome with ⟨result, s'⟩
  obtain rfl : s = s' := hLeft.symm
  cases result with
  | ok a => exact hNext a s
  | error e => rfl

theorem pure (a : α) : Idle (pure a : ExceptT ε (StateM σ) α) :=
  fun _ => rfl

theorem throw (e : ε) : Idle (throw e : ExceptT ε (StateM σ) α) :=
  fun _ => rfl

/- What is known already takes no action. -/
theorem settledAs (result : Except ε α) :
    Idle (settledAs result : ExceptT ε (StateM σ) α) := by
  cases result with
  | ok a => exact Idle.pure a
  | error e => exact Idle.throw e

/- Errors may be told in another way. -/
theorem adapt
    (f : ε → ε')
    (hAction : Idle action) :
    Idle (ExceptT.adapt f action) :=
  hAction

end Idle

end DesignTokens

------------------------------------------------------------
-- Orderly Systems
------------------------------------------------------------

namespace DesignTokens

/-
  A system whose state shows a tree of files is orderly when
  reading a text changes nothing, making a directory adds missing
  ones along its path at most, and writing a file either puts the
  text in its place or changes nothing.
-/
structure Files.Orderly
    {σ : Type}
    [Files (StateM σ)]
    (tree : σ → FileTree) : Prop where
  reads :
    ∀ path s,
      ((Files.readText? path : StateM σ _).run s).run.2 = s
  makes :
    ∀ path s,
      (tree s).Grows
        (tree ((Files.makeDirectory path : StateM σ _).run s).run.2)
        ((tree s).passed path)
  writes :
    ∀ path content s,
      let outcome := ((Files.writeFile path content : StateM σ _).run s).run
      (tree s).Stores path content outcome.1 (tree outcome.2)

/- A tree that is worked on in place of a system is orderly. -/
theorem FileTree.orderly :
    Files.Orderly (id : FileTree → FileTree) where
  reads _ _ := rfl
  makes path t := t.makeDirectory_grows path
  writes path content t := t.stores_writeFile path content

namespace Files.Orderly

variable {σ : Type}
variable [Files (StateM σ)]
variable {tree : σ → FileTree}

/- Making its parent makes missing ancestors of a path at most. -/
theorem grows_makeParent
    (hOrderly : Files.Orderly tree)
    (path : String)
    (s : σ) :
    (tree s).Grows
      (tree ((makeParent path : StateM σ _).run s).run.2)
      ((tree s).ancestors path) := by
  unfold makeParent
  split
  · next parent hParent =>
      rcases Option.filter_eq_some_iff.mp hParent with ⟨hParent, hSome⟩
      apply (hOrderly.makes parent s).mono
      intro place
      exact
        FileTree.mem_ancestors_of_parent hParent (of_decide_eq_true hSome)
  · exact FileTree.Grows.refl _ _

/- So a document is written, or some of these are made at most. -/
theorem writes_writeDocument
    (hOrderly : Files.Orderly tree)
    (path content : String)
    (s : σ) :
    let outcome := ((writeDocument path content : StateM σ _).run s).run
    (tree s).Writes path content outcome.1 (tree outcome.2) := by
  have hGrows := hOrderly.grows_makeParent path s
  rw [writeDocument, StateT.run_bind, Id.run_bind]
  generalize ((makeParent path : StateM σ Bool).run s).run = made
    at hGrows ⊢
  rcases made with ⟨ok, s₁⟩
  cases ok with
  | false => exact FileTree.Writes.refused hGrows
  | true => exact (hOrderly.writes path content s₁).writes hGrows

end Files.Orderly

end DesignTokens

------------------------------------------------------------
-- Runs
------------------------------------------------------------

namespace DesignTokens

variable {σ : Type}
variable [Files (StateM σ)]
variable {tree : σ → FileTree}

/- Loading a document only reads. -/
theorem Document.load_idle
    (hOrderly : Files.Orderly tree)
    (c : Collection)
    (path : String) :
    Idle (Document.load c path : ExceptT LoadError (StateM σ) _) := by
  refine Idle.bind (hOrderly.reads path) fun content => ?_
  cases content with
  | none => exact Idle.throw _
  | some content => exact Idle.settledAs _

/- So does loading the documents of a store. -/
theorem Store.load_idle
    (hOrderly : Files.Orderly tree)
    (sources : Layers String) :
    Idle (Store.load sources : ExceptT LoadError (StateM σ) _) := by
  have hLoad := Document.load_idle hOrderly
  refine Idle.bind (hLoad .primitives _) fun primitives => ?_
  refine Idle.bind (hLoad .semantic _) fun semantic => ?_
  refine Idle.bind (hLoad .component _) fun component => ?_
  exact Idle.settledAs _

/- Compiling only reads. -/
theorem compile_idle
    (hOrderly : Files.Orderly tree)
    (config : Config) :
    Idle (compile config : ExceptT RunError (StateM σ) _) := by
  refine Idle.bind (Idle.adapt _ (Idle.settledAs _)) fun _ => ?_
  refine Idle.bind (Idle.adapt _ (Store.load_idle hOrderly _)) ?_
  intro store
  exact Idle.pure _

/-
  What a build can come to from a state: it fails as compiling
  does, or the system refuses to write the document, or writes
  it.
-/
inductive BuildsTo
    (tree : σ → FileTree)
    (config : Config)
    (s : σ) : Except RunError Build → σ → Prop
| failed {e : RunError} :
    runOn (compile config) s = (.error e, s) →
      BuildsTo tree config s (.error e) s
| refused {emission : Emission} {s' : σ} :
    runOn (compile config) s = (.ok emission, s) →
      (tree s).Writes config.output
          (emission.render config.renderOptions) false (tree s') →
        BuildsTo tree config s (.error (.unwritable config.output)) s'
| written {emission : Emission} {s' : σ} :
    runOn (compile config) s = (.ok emission, s) →
      (tree s).Writes config.output
          (emission.render config.renderOptions) true (tree s') →
        BuildsTo tree config s
          (.ok
            ⟨emission, config.output,
              emission.render config.renderOptions⟩)
          s'

/- There is nothing else that a build does. -/
theorem buildsTo_runOn
    (hOrderly : Files.Orderly tree)
    (config : Config)
    (s : σ) :
    BuildsTo tree config s
      (runOn (build config) s).1 (runOn (build config) s).2 := by
  have hIdle := compile_idle hOrderly config s
  rw [build, runOn_bind]
  generalize hCompile : runOn (compile config) s = outcome at hIdle ⊢
  rcases outcome with ⟨result, s'⟩
  obtain rfl : s = s' := hIdle.symm
  cases result with
  | error e => exact BuildsTo.failed hCompile
  | ok emission =>
      have hWrites :=
        hOrderly.writes_writeDocument config.output
          (emission.render config.renderOptions) s
      dsimp only at hWrites ⊢
      rw [runOn_bind, runOn_lift]
      generalize
        ((writeDocument config.output
            (emission.render config.renderOptions) :
          StateM σ Bool).run s).run = outcome at hWrites ⊢
      rcases outcome with ⟨ok, s'⟩
      cases ok with
      | false => exact BuildsTo.refused hCompile hWrites
      | true => exact BuildsTo.written hCompile hWrites

/-
  A fatal error leaves the files alone, and success touches the
  output only.  Compiling changes nothing, and neither does a
  build that fails before it writes.  A build that cannot write
  has made missing directories at most.  A build that succeeds
  has written the rendering of what compiling gives from the
  state before, has taken no directory's place, and has made no
  directories but missing ones that the output path passes.
-/
theorem build_touches_output_only
    (hOrderly : Files.Orderly tree)
    (config : Config)
    (s : σ) :
    (runOn (compile config) s).2 = s
      ∧ (∀ e s',
          runOn (build config) s = (.error (.config e), s') →
            s' = s)
      ∧ (∀ e s',
          runOn (build config) s = (.error (.load e), s') →
            s' = s)
      ∧ (∀ path s',
          runOn (build config) s = (.error (.unwritable path), s') →
            (tree s).Grows (tree s') ((tree s).ancestors config.output))
      ∧ ∀ b s',
          runOn (build config) s = (.ok b, s') →
            runOn (compile config) s = (.ok b.emission, s)
              ∧ b.document = b.emission.render config.renderOptions
              ∧ b.output = config.output
              ∧ ∃ place,
                  (tree s).WrittenAt (tree s') config.output
                    b.document place := by
  have hBuilds := buildsTo_runOn hOrderly config s
  refine
    ⟨compile_idle hOrderly config s, ?config, ?load, ?unwritable,
      ?built⟩
  case config =>
    intro e s' hBuild
    rw [hBuild] at hBuilds
    cases hBuilds with
    | failed _ => rfl
  case load =>
    intro e s' hBuild
    rw [hBuild] at hBuilds
    cases hBuilds with
    | failed _ => rfl
  case unwritable =>
    intro path s' hBuild
    rw [hBuild] at hBuilds
    cases hBuilds with
    | failed _ => exact FileTree.Grows.refl _ _
    | refused _ hWrites =>
        cases hWrites with
        | refused hGrows => exact hGrows
  case built =>
    intro b s' hBuild
    rw [hBuild] at hBuilds
    cases hBuilds with
    | written hCompile hWrites =>
        cases hWrites with
        | written hWritten => exact ⟨hCompile, rfl, rfl, _, hWritten⟩

/- Three documents without tokens. -/
def emptyDocuments : FileTree where
  entries :=
    [(["primitives.json"], .text "\x7b\x7d"),
      (["semantic.json"], .text "\x7b\x7d"),
      (["components.json"], .text "\x7b\x7d")]
  current := []

/- A run that writes next to the documents. -/
def besideDocuments : Config where
  sources := ⟨"primitives.json", "semantic.json", "components.json"⟩
  output := "dist/tokens.json"
  format := .json
  namer := ⟨"token"⟩
  maxDepth := 10
  descriptions := false

/- It succeeds, and so it writes its output and nothing else. -/
theorem besideDocuments_built :
    ∃ b t',
      runOn (build besideDocuments) emptyDocuments = (.ok b, t')
        ∧ ∃ place,
            emptyDocuments.WrittenAt t' "dist/tokens.json" b.document
              place := by
  have hOk :
      (runOn (build besideDocuments) emptyDocuments).1.isOk = true := by
    decide +kernel
  generalize hRun : runOn (build besideDocuments) emptyDocuments = outcome
    at hOk
  rcases outcome with ⟨result, t'⟩
  cases result with
  | error e => simp [Except.isOk, Except.toBool] at hOk
  | ok b =>
      have hBuilt :=
        (build_touches_output_only FileTree.orderly besideDocuments
          emptyDocuments).2.2.2.2 b t' hRun
      exact ⟨b, t', rfl, hBuilt.2.2.2⟩

end DesignTokens
