import DesignTokens.Path.Basic

/-
  This file tells how a path begins with its parent.

  Key theorems include:
    * `Path.parent?_eq_some`
    * `Path.split_prefix_dropLast`

  The parent of a path is a beginning of its text, so its parts
  are some of the first parts of the path.  Only the root and
  the empty path are parents without being cut off at a slash.
-/

------------------------------------------------------------
-- Parts of a Path
------------------------------------------------------------

namespace DesignTokens

namespace Path

/- Dropping idle parts at the end leaves a beginning. -/
theorem dropIdle_isPrefix (parts : List (List Char)) :
    dropIdle parts <+: parts := by
  have hSuffix := List.dropWhile_suffix isIdle (l := parts.reverse)
  rw [← List.reverse_prefix, List.reverse_reverse] at hSuffix
  exact hSuffix

/- A path is its start and what stands behind it. -/
theorem start_append_drop (cs : List Char) :
    start cs ++ cs.drop (start cs).length = cs := by
  unfold start
  split <;> rfl

/- A start is nothing, the root, or a dot before a slash. -/
theorem start_cases
    {cs : List Char}
    (hMore : cs ≠ ['.']) :
    start cs = [] ∨ start cs = ['/']
      ∨ ∃ rest, cs = start cs ++ '/' :: rest := by
  unfold start
  split
  · exact Or.inr (Or.inl rfl)
  · exact absurd rfl hMore
  · exact Or.inr (Or.inr ⟨_, rfl⟩)
  · exact Or.inl rfl

/- A path is made of the parts that its parent has, and others. -/
theorem toList_eq_of_parts
    {path : String}
    {head : List Char}
    {ps : List (List Char)}
    (hParts : parts path = (head, ps))
    (hNamed : ps ≠ []) :
    ∃ more,
      more ≠ []
        ∧ path.toList =
            head ++ Text.joinChars '/' (dropIdle ps.dropLast ++ more) := by
  rcases Prod.mk.inj hParts with ⟨hHead, hKept⟩
  have hWhole := start_append_drop path.toList
  rw [hHead] at hWhole hKept
  have hLast := List.dropLast_concat_getLast hNamed
  rcases dropIdle_isPrefix ps.dropLast with ⟨idle, hIdle⟩
  rcases dropIdle_isPrefix (Text.splitChars '/' _) with ⟨rest, hRest⟩
  rw [hKept, ← hLast, ← hIdle] at hRest
  refine ⟨idle ++ [ps.getLast hNamed] ++ rest, by simp, ?_⟩
  rw [← List.append_assoc, ← List.append_assoc, hRest,
    Text.joinChars_splitChars, hWhole]

/- A parent that is not the root ends before a slash. -/
theorem parent?_eq_some
    {path parent : String}
    (hParent : parent? path = some parent) :
    parent = "" ∨ parent = "/"
      ∨ ∃ rest, path.toList = parent.toList ++ '/' :: rest := by
  unfold parent? at hParent
  split at hParent
  · next head hParts =>
      split at hParent
      · exact Or.inl (Option.some.inj hParent).symm
      · simp at hParent
  · next head ps hNamed hParts =>
      rcases toList_eq_of_parts hParts hNamed with ⟨more, hMore, hWhole⟩
      cases hParent
      by_cases hKept : dropIdle ps.dropLast = []
      · rcases Prod.mk.inj hParts with ⟨hHead, hRest⟩
        have hMore : path.toList ≠ ['.'] := by
          intro hDot
          rw [hDot] at hRest
          exact hNamed hRest.symm
        have hStart := start_cases hMore
        rw [hHead] at hStart
        rw [hKept, Text.joinChars, List.append_nil]
        rcases hStart with rfl | rfl | ⟨rest, hSlash⟩
        · exact Or.inl rfl
        · exact Or.inr (Or.inl rfl)
        · exact Or.inr (Or.inr ⟨rest, by simpa using hSlash⟩)
      · right
        right
        rw [Text.joinChars_append hKept hMore] at hWhole
        exact ⟨Text.joinChars '/' more, by simpa using hWhole⟩

/- So its parts are some of the first parts of the path. -/
theorem split_prefix_dropLast
    {path parent : String}
    {rest : List Char}
    (hWhole : path.toList = parent.toList ++ '/' :: rest) :
    Text.split '/' parent <+: (Text.split '/' path).dropLast := by
  rw [Text.split, Text.split, hWhole, Text.splitChars_append,
    ← List.map_dropLast,
    List.dropLast_append_of_ne_nil (Text.splitChars_ne_nil '/' rest),
    List.map_append]
  exact List.prefix_append _ _

end Path

end DesignTokens
