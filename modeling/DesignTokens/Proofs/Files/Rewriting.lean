import DesignTokens.Proofs.Files.Tree

/-
  This file tells what becomes of texts when one is written, and
  what writing the same text again does.

  Key definitions include:
    * `FileTree.Meet`

  Key theorems include:
    * `FileTree.makeDirectories_of_isDirectory`
    * `FileTree.writeText_eq_true_iff`
    * `FileTree.writeText_again`
    * `FileTree.WrittenAt.readText?_eq`

  Once a text is written, all directories that its path passes
  are there and stay, so nothing is left to make.  A file is
  read as before unless its path meets the path of the output.
-/

------------------------------------------------------------
-- Making Directories Again
------------------------------------------------------------

namespace DesignTokens

namespace FileTree

variable {t t' t₁ : FileTree}
variable {path content : String}
variable {place parts : List String}

/- What directories were to be made along are directories then. -/
theorem isDirectory_of_makeDirectories
    (hMade : makeDirectories place parts t = (true, t'))
    {other : List String}
    (hAlong : other ∈ placesAlong place parts) :
    t'.IsDirectory other := by
  induction parts generalizing place t with
  | nil => simp [placesAlong] at hAlong
  | cons part parts ih =>
      have hGrows (t₁ : FileTree) :=
        makeDirectories_grows (follow place part) parts t₁
      rw [placesAlong] at hAlong
      rw [makeDirectories] at hMade
      split at hMade
      · next hHere =>
          rcases List.mem_cons.mp hAlong with rfl | hLater
          · have hStays := (hGrows t).isDirectory hHere
            rwa [hMade] at hStays
          · exact ih hMade hLater
      · simp at hMade
      · next hNone =>
          split at hMade
          · rcases List.mem_cons.mp hAlong with rfl | hLater
            · have hSome := ne_nil_of_node?_eq_none hNone
              have hStays :=
                (hGrows (t.put (follow place part) .directory)).isDirectory
                  (node?_put_self t _ .directory hSome)
              rwa [hMade] at hStays
            · exact ih hMade hLater
          · simp at hMade

/- Nothing is made where all directories are there. -/
theorem makeDirectories_of_isDirectory
    (hThere : ∀ other ∈ placesAlong place parts, t.IsDirectory other) :
    makeDirectories place parts t = (true, t) := by
  induction parts generalizing place with
  | nil => rfl
  | cons part parts ih =>
      rw [placesAlong, List.forall_mem_cons] at hThere
      have hHere : t.node? (follow place part) = some .directory :=
        hThere.1
      rw [makeDirectories, hHere]
      exact ih hThere.2

/- Where the directories of a path have stayed, none is made. -/
theorem makeDirectory_again
    (hMade : makeDirectory path t = (true, t₁))
    (hCurrent : t'.current = t.current)
    (hStay : ∀ other, t₁.IsDirectory other → t'.IsDirectory other) :
    makeDirectory path t' = (true, t') := by
  have hBase : t'.base path = t.base path := by
    rw [base, base, hCurrent]
  unfold makeDirectory at hMade ⊢
  split at hMade
  · next hUsable =>
      rw [if_pos hUsable, hBase]
      apply makeDirectories_of_isDirectory
      intro other hAlong
      exact hStay other (isDirectory_of_makeDirectories hMade hAlong)
  · next hUnusable =>
      rw [if_neg hUnusable]
      exact Prod.ext (Prod.mk.inj hMade).1 rfl

end FileTree

end DesignTokens

------------------------------------------------------------
-- Writing Again
------------------------------------------------------------

namespace DesignTokens

namespace FileTree

variable {t t' : FileTree}
variable {path content : String}
variable {place : List String}

/- Putting what is there already changes nothing. -/
theorem same_put
    {node : FileNode}
    (hPlace : place ≠ [])
    (hThere : t.node? place = some node) :
    t.Same (t.put place node) := by
  refine ⟨rfl, fun other => ?_⟩
  by_cases hOther : other = place
  · rw [hOther, node?_put_self t place node hPlace, hThere]
  · exact node?_put_of_ne t place other node hOther

/- Making a path's parent is making a directory. -/
theorem run_makeParent
    (path : String)
    (t : FileTree) :
    ((makeParent path : StateM FileTree Bool).run t).run =
      t.makeDirectory ((Path.parent? path).getD "") := by
  have hEmpty : t.makeDirectory "" = (true, t) := by
    rw [makeDirectory, if_neg (by decide), decide_eq_true rfl]
  unfold makeParent
  cases Path.parent? path with
  | none => exact hEmpty.symm
  | some parent =>
      by_cases hSome : parent = ""
      · subst hSome
        exact hEmpty.symm
      · rw [Option.filter_some, if_pos (decide_eq_true hSome)]
        rfl

/- A document is written when its directory is there. -/
theorem writeText_eq_true_iff :
    t.writeText path content = (true, t') ↔
      ∃ t₁,
        t.makeDirectory ((Path.parent? path).getD "") = (true, t₁)
          ∧ t₁.writeFile path content = (true, t') := by
  rw [← run_makeParent, writeText, writeDocument, StateT.run_bind,
    Id.run_bind]
  generalize ((makeParent path : StateM FileTree Bool).run t).run = made
  rcases made with ⟨ok, t₁⟩
  cases ok with
  | false => simp
  | true => simp [Files.writeFile, Prod.ext_iff]

/- A text that was written can be written again to no effect. -/
theorem writeText_again
    (hWritten : t.writeText path content = (true, t')) :
    ∃ t'', t'.writeText path content = (true, t'') ∧ t'.Same t'' := by
  rcases writeText_eq_true_iff.mp hWritten with ⟨t₁, hMade, hFile⟩
  have hStores := stores_writeFile path content t₁
  rw [hFile] at hStores
  cases hStores with
  | @stored _ place hPlace hFree hPuts =>
      -- The text takes no directory's place, so those made stay.
      have hStay (other : List String) :
          t₁.IsDirectory other → t'.IsDirectory other :=
        hPuts.isDirectory hFree
      have hCurrent : t'.current = t.current := by
        have hGrows := makeDirectory_grows ((Path.parent? path).getD "") t
        rw [hMade] at hGrows
        exact hPuts.current.trans hGrows.current
      have hLocate : t'.locate? path = some place :=
        locate?_mono hPuts.current hStay hPlace
      have hMade' := makeDirectory_again hMade hCurrent hStay
      have hFile' :
          t'.writeFile path content =
            (true, t'.put place (.text content)) := by
        simp [writeFile, hLocate, IsDirectory, hPuts.node?_eq]
      have hSome := ne_nil_of_not_isDirectory hFree
      refine ⟨_, ?_, same_put hSome hPuts.node?_eq⟩
      exact writeText_eq_true_iff.mpr ⟨t', hMade', hFile'⟩

end FileTree

end DesignTokens

------------------------------------------------------------
-- Reading What Was Written
------------------------------------------------------------

namespace DesignTokens

namespace FileTree

variable {t t' : FileTree}
variable {path other content text : String}
variable {place : List String}

/- Two paths lead to one place. -/
def Meet
    (t : FileTree)
    (path other : String) : Prop :=
  (t.locate? path).isSome ∧ t.locate? other = t.locate? path

instance
    (t : FileTree)
    (path other : String) :
    Decidable (t.Meet path other) := by
  unfold Meet
  infer_instance

/- A text is read where it stands. -/
theorem readText?_eq_some_iff :
    t.readText? path = some text ↔
      ∃ place,
        t.locate? path = some place
          ∧ t.node? place = some (.text text) := by
  unfold readText? nodeAt?
  constructor
  · intro hRead
    split at hRead
    · next hNode =>
        cases hRead
        exact Option.bind_eq_some_iff.mp hNode
    · simp at hRead
  · intro hStands
    rw [Option.bind_eq_some_iff.mpr hStands]

namespace WrittenAt

/- Directories stay, wherever a text is written. -/
theorem isDirectory
    (hWritten : t.WrittenAt t' path content place)
    {other : List String}
    (hDirectory : t.IsDirectory other) :
    t'.IsDirectory other := by
  have hOther : other ≠ place := by
    rintro rfl
    exact hWritten.free hDirectory
  rcases hWritten.keptOrMade other hOther with hKept | ⟨-, -, hMade⟩
  · exact hKept.trans hDirectory
  · exact hMade

/- A path that meets the output leads to what was written. -/
theorem readText?_eq_content
    (hWritten : t.WrittenAt t' path content place)
    (hMeet : t'.Meet path other) :
    t'.readText? other = some content := by
  have hOther := hMeet.2.trans hWritten.locate?_eq
  exact readText?_eq_some_iff.mpr ⟨place, hOther, hWritten.node?_eq⟩

/- Any other text is read as it was. -/
theorem readText?_eq
    (hWritten : t.WrittenAt t' path content place)
    (hRead : t.readText? other = some text)
    (hApart : ¬ t'.Meet path other) :
    t'.readText? other = some text := by
  rcases readText?_eq_some_iff.mp hRead with ⟨there, hLocate, hNode⟩
  have hStay (there : List String) (hDirectory : t.IsDirectory there) :
      t'.IsDirectory there :=
    hWritten.isDirectory hDirectory
  have hLocate' := locate?_mono hWritten.current hStay hLocate
  have hThere : there ≠ place := by
    rintro rfl
    rw [← hWritten.locate?_eq] at hLocate'
    exact hApart ⟨by simp [hWritten.locate?_eq], hLocate'⟩
  refine readText?_eq_some_iff.mpr ⟨there, hLocate', ?_⟩
  rcases hWritten.keptOrMade there hThere with hKept | ⟨-, hNone, -⟩
  · exact hKept.trans hNode
  · simp [hNode] at hNone

end WrittenAt

end FileTree

end DesignTokens
