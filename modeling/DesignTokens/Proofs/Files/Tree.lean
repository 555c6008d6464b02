import DesignTokens.Files.Tree
import DesignTokens.Proofs.Files.Path

/-
  This file tells what making directories and writing files
  change in a tree of files.

  Key definitions include:
    * `FileTree.ancestors`
    * `FileTree.Same`
    * `FileTree.Grows`
    * `FileTree.Stores`
    * `FileTree.WrittenAt`
    * `FileTree.Writes`

  Key theorems include:
    * `FileTree.makeDirectory_grows`
    * `FileTree.stores_writeFile`
    * `FileTree.locate?_mono`
    * `FileTree.Stores.writes`

  Directories are only ever added, one by one and where nothing
  was, so what was there stays and is found where it was.  A
  system may refuse to go on at any point, but it never changes
  a file unless it takes the whole text.
-/

------------------------------------------------------------
-- Places along a Path
------------------------------------------------------------

namespace DesignTokens

namespace FileTree

/- The places that parts lead to, one after the other. -/
def placesAlong :
    List String → List String → List (List String)
| _, [] => []
| place, part :: parts =>
    follow place part :: placesAlong (follow place part) parts

/- The places that a path passes, its end among them. -/
def passed
    (t : FileTree)
    (path : String) : List (List String) :=
  placesAlong (t.base path) (Text.split '/' path)

/- The places that a path passes before it comes to its end. -/
def ancestors
    (t : FileTree)
    (path : String) : List (List String) :=
  placesAlong (t.base path) (Text.split '/' path).dropLast

example :
    ancestors ⟨[], ["home"]⟩ "dist/css/tokens.css" =
      [["home", "dist"], ["home", "dist", "css"]] := by
  decide

/- The first parts of a path lead to the first of its places. -/
theorem placesAlong_isPrefix
    {parts parts' : List String}
    (hPrefix : parts <+: parts')
    (place : List String) :
    placesAlong place parts <+: placesAlong place parts' := by
  induction parts generalizing parts' place with
  | nil => exact List.nil_prefix
  | cons part parts ih =>
      rcases hPrefix with ⟨rest, rfl⟩
      rw [List.cons_append, placesAlong, placesAlong,
        List.prefix_cons_inj]
      exact ih (List.prefix_append _ _) _

end FileTree

end DesignTokens

------------------------------------------------------------
-- Growing Trees
------------------------------------------------------------

namespace DesignTokens

namespace FileTree

variable {t t' t'' : FileTree}
variable {places places' : List (List String)}
variable {place : List String}

/- The root is a directory, and it is always there. -/
theorem isDirectory_nil (t : FileTree) : t.IsDirectory [] :=
  if_pos rfl

theorem ne_nil_of_not_isDirectory
    (hFree : ¬ t.IsDirectory place) :
    place ≠ [] := by
  rintro rfl
  exact hFree (isDirectory_nil t)

theorem ne_nil_of_node?_eq_none
    (hNone : t.node? place = none) :
    place ≠ [] := by
  apply ne_nil_of_not_isDirectory (t := t)
  rw [IsDirectory, hNone]
  exact (Option.some_ne_none _).symm

/- The same stands at every place of two trees. -/
structure Same (t t' : FileTree) : Prop where
  current : t'.current = t.current
  node?_eq : ∀ place, t'.node? place = t.node? place

theorem Same.refl (t : FileTree) : t.Same t :=
  ⟨rfl, fun _ => rfl⟩

/-
  A place is as it was, or it is one of the places that were
  missing and hold a directory now.
-/
def KeptOrMade
    (t t' : FileTree)
    (places : List (List String))
    (place : List String) : Prop :=
  t'.node? place = t.node? place
    ∨ (place ∈ places
      ∧ t.node? place = none
      ∧ t'.node? place = some .directory)

/- Nothing is changed but that directories have been added. -/
structure Grows
    (t t' : FileTree)
    (places : List (List String)) : Prop where
  current : t'.current = t.current
  keptOrMade : ∀ place, t.KeptOrMade t' places place

namespace Grows

theorem of_same
    (hSame : t.Same t')
    (places : List (List String)) :
    t.Grows t' places :=
  ⟨hSame.current, fun place => Or.inl (hSame.node?_eq place)⟩

theorem refl
    (t : FileTree)
    (places : List (List String)) :
    t.Grows t places :=
  of_same (Same.refl t) places

theorem trans
    (hFirst : t.Grows t' places)
    (hSecond : t'.Grows t'' places) :
    t.Grows t'' places := by
  refine ⟨hSecond.current.trans hFirst.current, fun place => ?_⟩
  rcases hSecond.keptOrMade place with hKept | ⟨hMem, hNone, hMade⟩
  · rcases hFirst.keptOrMade place with hBefore | ⟨hMem, hNone, hMade⟩
    · exact Or.inl (hKept.trans hBefore)
    · exact Or.inr ⟨hMem, hNone, hKept.trans hMade⟩
  · rcases hFirst.keptOrMade place with hBefore | ⟨-, hNone', -⟩
    · exact Or.inr ⟨hMem, hBefore.symm.trans hNone, hMade⟩
    · exact Or.inr ⟨hMem, hNone', hMade⟩

/- Only the places that were missing matter. -/
theorem mono
    (hGrows : t.Grows t' places)
    (hMissing :
      ∀ place ∈ places, t.node? place = none → place ∈ places') :
    t.Grows t' places' := by
  refine ⟨hGrows.current, fun place => ?_⟩
  rcases hGrows.keptOrMade place with hKept | ⟨hMem, hNone, hMade⟩
  · exact Or.inl hKept
  · exact Or.inr ⟨hMissing place hMem hNone, hNone, hMade⟩

/- A directory where nothing was makes the tree grow. -/
theorem put
    (hNone : t.node? place = none) :
    t.Grows (t.put place .directory) [place] := by
  have hPlace := ne_nil_of_node?_eq_none hNone
  refine ⟨rfl, fun other => ?_⟩
  by_cases hOther : other = place
  · subst hOther
    exact
      Or.inr
        ⟨List.mem_singleton.mpr rfl, hNone,
          node?_put_self t other .directory hPlace⟩
  · exact Or.inl (node?_put_of_ne t place other .directory hOther)

/- Directories stay directories. -/
theorem isDirectory
    (hGrows : t.Grows t' places)
    (hDirectory : t.IsDirectory place) :
    t'.IsDirectory place := by
  rcases hGrows.keptOrMade place with hKept | ⟨-, -, hMade⟩
  · exact hKept.trans hDirectory
  · exact hMade

end Grows

/- Making directories adds directories along the parts only. -/
theorem makeDirectories_grows
    (place parts : List String)
    (t : FileTree) :
    t.Grows (makeDirectories place parts t).2
      (placesAlong place parts) := by
  induction parts generalizing place t with
  | nil => exact Grows.refl t _
  | cons part parts ih =>
      have hLater (t' : FileTree) :
          t'.Grows (makeDirectories (follow place part) parts t').2
            (placesAlong place (part :: parts)) :=
        (ih (follow place part) t').mono
          fun _ hMem _ => List.mem_cons_of_mem _ hMem
      rw [makeDirectories]
      split
      · exact hLater t
      · exact Grows.refl t _
      · next hNone =>
          split
          · have hHere :
                t.Grows (t.put (follow place part) .directory)
                  (placesAlong place (part :: parts)) := by
              apply (Grows.put hNone).mono
              intro other hOther _
              rw [List.mem_singleton.mp hOther]
              exact List.mem_cons_self
            exact hHere.trans (hLater _)
          · exact Grows.refl t _

end FileTree

end DesignTokens

------------------------------------------------------------
-- Making Directories
------------------------------------------------------------

namespace DesignTokens

namespace FileTree

variable {t t' : FileTree}

/- Whether or not it succeeds, it adds directories only. -/
theorem makeDirectory_grows
    (path : String)
    (t : FileTree) :
    t.Grows (t.makeDirectory path).2 (t.passed path) := by
  unfold makeDirectory
  split
  · exact makeDirectories_grows _ _ t
  · exact Grows.refl t _

/- Where the parts of a path start depends on its front. -/
theorem base_eq_of_append
    {path parent : String}
    {rest : List Char}
    (hSome : parent ≠ "")
    (hWhole : path.toList = parent.toList ++ rest)
    (t : FileTree) :
    t.base path = t.base parent := by
  have hFront : path.toList.head? = parent.toList.head? := by
    rw [hWhole]
    cases hList : parent.toList with
    | nil => exact absurd (String.toList_eq_nil_iff.mp hList) hSome
    | cons c cs => rfl
  simp only [base, Path.IsAbsolute, hFront]

/- What is missing along the parent of a path are its ancestors. -/
theorem mem_ancestors_of_parent
    {path parent : String}
    {place : List String}
    (hParent : Path.parent? path = some parent)
    (hSome : parent ≠ "")
    (hMem : place ∈ t.passed parent)
    (hNone : t.node? place = none) :
    place ∈ t.ancestors path := by
  rcases Path.parent?_eq_some hParent with rfl | rfl | ⟨rest, hWhole⟩
  · exact absurd rfl hSome
  · have hPassed : t.passed "/" = [[], []] := by
      have hBase : t.base "/" = [] := if_pos (by decide)
      rw [passed, hBase]
      decide
    have hRoot : place = [] := by simpa [hPassed] using hMem
    exact absurd hRoot (ne_nil_of_node?_eq_none hNone)
  · have hBase := base_eq_of_append hSome hWhole t
    have hFewer := Path.split_prefix_dropLast hWhole
    rw [ancestors, hBase]
    exact (placesAlong_isPrefix hFewer _).subset hMem

end FileTree

end DesignTokens

------------------------------------------------------------
-- Writing
------------------------------------------------------------

namespace DesignTokens

namespace FileTree

variable {t t' : FileTree}
variable {path content : String}
variable {place : List String}

/- Something stands at a place now, and all else is as it was. -/
structure Puts
    (t t' : FileTree)
    (place : List String)
    (node : FileNode) : Prop where
  current : t'.current = t.current
  node?_eq : t'.node? place = some node
  others : ∀ other ≠ place, t'.node? other = t.node? other

/- What is put somewhere stands there. -/
theorem puts_put
    (t : FileTree)
    (node : FileNode)
    (hPlace : place ≠ []) :
    t.Puts (t.put place node) place node where
  current := rfl
  node?_eq := node?_put_self t place node hPlace
  others other := node?_put_of_ne t place other node

/- Directories stay when something is put elsewhere. -/
theorem Puts.isDirectory
    {node : FileNode}
    (hPuts : t.Puts t' place node)
    (hFree : ¬ t.IsDirectory place)
    {other : List String}
    (hDirectory : t.IsDirectory other) :
    t'.IsDirectory other := by
  have hOther : other ≠ place := by
    rintro rfl
    exact hFree hDirectory
  exact (hPuts.others other hOther).trans hDirectory

/-
  What a system may do with a tree when it is asked to write a
  file: put the text where the path leads, unless a directory
  is there, or nothing at all.
-/
inductive Stores
    (t : FileTree)
    (path content : String) : Bool → FileTree → Prop
| stored {t' : FileTree} {place : List String} :
    t.locate? path = some place →
      ¬ t.IsDirectory place →
        t.Puts t' place (.text content) →
          t.Stores path content true t'
| refused {t' : FileTree} :
    t.Same t' →
      t.Stores path content false t'

/- The tree itself writes files as a system does. -/
theorem stores_writeFile
    (path content : String)
    (t : FileTree) :
    t.Stores path content
      (t.writeFile path content).1 (t.writeFile path content).2 := by
  unfold writeFile
  split
  · exact Stores.refused (Same.refl t)
  · next place hPlace =>
      split
      · exact Stores.refused (Same.refl t)
      · next hFree =>
          have hPuts :=
            puts_put t (.text content) (ne_nil_of_not_isDirectory hFree)
          exact Stores.stored hPlace hFree hPuts

/- Where directories stay, parts lead to the same places. -/
theorem followAll?_mono
    (hStay : ∀ place, t.IsDirectory place → t'.IsDirectory place)
    {start : List String}
    {parts : List String}
    (hPlace : t.followAll? start parts = some place) :
    t'.followAll? start parts = some place := by
  induction parts generalizing start with
  | nil => exact hPlace
  | cons part parts ih =>
      rw [followAll?] at hPlace ⊢
      split at hPlace
      · next hHere =>
          rw [if_pos ⟨hStay start hHere.1, hHere.2⟩]
          exact ih hPlace
      · simp at hPlace

/- So paths do. -/
theorem locate?_mono
    (hCurrent : t'.current = t.current)
    (hStay : ∀ place, t.IsDirectory place → t'.IsDirectory place)
    (hPlace : t.locate? path = some place) :
    t'.locate? path = some place := by
  have hBase : t'.base path = t.base path := by
    rw [base, base, hCurrent]
  unfold locate? at hPlace ⊢
  split at hPlace
  · next hUsable =>
      rw [if_pos hUsable, hBase]
      exact followAll?_mono hStay hPlace
  · simp at hPlace

/-
  A text stands where a path leads to now, and no directory was
  there.  All other places are kept, but for directories that
  the path passes and that were missing.
-/
structure WrittenAt
    (t t' : FileTree)
    (path content : String)
    (place : List String) : Prop where
  current : t'.current = t.current
  locate?_eq : t'.locate? path = some place
  node?_eq : t'.node? place = some (.text content)
  free : ¬ t.IsDirectory place
  keptOrMade :
    ∀ other ≠ place, t.KeptOrMade t' (t.ancestors path) other

/-
  What writing a document may come to: its text is written, or
  some directories that the path passes are made and no more.
-/
inductive Writes
    (t : FileTree)
    (path content : String) : Bool → FileTree → Prop
| written {t' : FileTree} {place : List String} :
    t.WrittenAt t' path content place →
      t.Writes path content true t'
| refused {t' : FileTree} :
    t.Grows t' (t.ancestors path) →
      t.Writes path content false t'

/- A file is written after directories have been made for it. -/
theorem Stores.writes
    {t₁ : FileTree}
    {ok : Bool}
    (hGrows : t.Grows t₁ (t.ancestors path))
    (hStores : t₁.Stores path content ok t') :
    t.Writes path content ok t' := by
  cases hStores with
  | refused hSame =>
      exact Writes.refused (hGrows.trans (Grows.of_same hSame _))
  | stored hPlace hFree hPuts =>
      refine Writes.written ⟨?_, ?_, hPuts.node?_eq, ?_, ?_⟩
      · exact hPuts.current.trans hGrows.current
      · exact
          locate?_mono hPuts.current (fun _ => hPuts.isDirectory hFree)
            hPlace
      · intro hDirectory
        exact hFree (hGrows.isDirectory hDirectory)
      · intro other hOther
        rw [KeptOrMade, hPuts.others other hOther]
        exact hGrows.keptOrMade other

end FileTree

end DesignTokens
