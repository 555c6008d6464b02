/-
  This file defines splitting a list of characters at a
  separator, and the inverse operation.

  Key definitions include:
    * `Text.splitChars`
    * `Text.joinChars`
    * `Text.split`
    * `Text.join`

  Key theorems include:
    * `Text.joinChars_splitChars`
    * `Text.joinChars_append`
    * `Text.splitChars_append`
    * `Text.splitChars_joinChars`
    * `Text.notMem_of_mem_splitChars`
    * `Text.isInfix_of_mem_splitChars`
    * `Text.split_eq_split_iff`

  Splitting never yields an empty list: a text without the
  separator is its own single piece, and the empty text is one
  empty piece.
-/

------------------------------------------------------------
-- Pieces of a Character List
------------------------------------------------------------

namespace DesignTokens

namespace Text

/- The pieces of a list between occurrences of `sep`. -/
def splitChars (sep : Char) : List Char → List (List Char)
| [] => [[]]
| c :: cs =>
    if c = sep then
      [] :: splitChars sep cs
    else
      match splitChars sep cs with
      | [] => [[c]]
      | piece :: pieces => (c :: piece) :: pieces

/- Pieces written one after the other with `sep` between them. -/
def joinChars (sep : Char) : List (List Char) → List Char
| [] => []
| [piece] => piece
| piece :: pieces => piece ++ sep :: joinChars sep pieces

/- Two pieces have a separator between them. -/
theorem joinChars_cons_cons
    (sep : Char)
    (first second : List Char)
    (rest : List (List Char)) :
    joinChars sep (first :: second :: rest) =
      first ++ sep :: joinChars sep (second :: rest) :=
  rfl

/- Splitting yields at least one piece. -/
theorem splitChars_ne_nil
    (sep : Char)
    (cs : List Char) :
    splitChars sep cs ≠ [] := by
  cases cs with
  | nil => simp [splitChars]
  | cons c cs =>
      unfold splitChars
      split
      · simp
      · split <;> simp

/- Joining the pieces of a list gives the list back. -/
theorem joinChars_splitChars
    (sep : Char)
    (cs : List Char) :
    joinChars sep (splitChars sep cs) = cs := by
  induction cs with
  | nil => rfl
  | cons c cs ih =>
      unfold splitChars
      have hne := splitChars_ne_nil sep cs
      split
      · next hc =>
          subst hc
          cases h : splitChars c cs with
          | nil => exact absurd h hne
          | cons piece pieces =>
              rw [h] at ih
              simp [joinChars, ih]
      · next hc =>
          cases h : splitChars sep cs with
          | nil => exact absurd h hne
          | cons piece pieces =>
              rw [h] at ih
              cases pieces with
              | nil => simpa [joinChars] using ih
              | cons p ps => simpa [joinChars] using ih

/- Joining pieces in two groups puts a separator between them. -/
theorem joinChars_append
    {sep : Char}
    {before after : List (List Char)}
    (hBefore : before ≠ [])
    (hAfter : after ≠ []) :
    joinChars sep (before ++ after) =
      joinChars sep before ++ sep :: joinChars sep after := by
  induction before with
  | nil => exact absurd rfl hBefore
  | cons piece pieces ih =>
      cases pieces with
      | nil =>
          rw [List.singleton_append, joinChars, joinChars]
          exact hAfter
      | cons next pieces =>
          rw [List.cons_append, List.cons_append, joinChars_cons_cons,
            joinChars_cons_cons, ← List.cons_append, ih (by simp),
            List.append_assoc, List.cons_append]

/- Splitting yields a first piece and those after it. -/
theorem exists_splitChars_cons
    (sep : Char)
    (cs : List Char) :
    ∃ piece pieces, splitChars sep cs = piece :: pieces :=
  List.exists_cons_of_ne_nil (splitChars_ne_nil sep cs)

/- A list without the separator is its own single piece. -/
theorem splitChars_of_notMem
    {sep : Char}
    {cs : List Char}
    (hNot : sep ∉ cs) :
    splitChars sep cs = [cs] := by
  induction cs with
  | nil => rfl
  | cons c cs ih =>
      rw [List.mem_cons, not_or] at hNot
      rw [splitChars, if_neg (Ne.symm hNot.1), ih hNot.2]

/- A separator parts the pieces before it from those after it. -/
theorem splitChars_append
    (sep : Char)
    (before after : List Char) :
    splitChars sep (before ++ sep :: after) =
      splitChars sep before ++ splitChars sep after := by
  induction before with
  | nil => simp [splitChars]
  | cons c cs ih =>
      rw [List.cons_append, splitChars, splitChars, ih]
      by_cases hSep : c = sep
      · simp [hSep]
      · rcases exists_splitChars_cons sep cs with
          ⟨piece, pieces, hPieces⟩
        simp [hSep, hPieces]

/- The first separator parts a list in one way. -/
theorem append_cons_inj
    {sep : Char}
    {front front' back back' : List Char}
    (hFront : sep ∉ front)
    (hFront' : sep ∉ front')
    (hEq : front ++ sep :: back = front' ++ sep :: back') :
    front = front' ∧ back = back' := by
  have hPieces := congrArg (splitChars sep) hEq
  rw [splitChars_append, splitChars_append, splitChars_of_notMem hFront,
    splitChars_of_notMem hFront'] at hPieces
  obtain rfl : front = front' := (List.cons.inj hPieces).1
  exact ⟨rfl, (List.cons.inj (List.append_cancel_left hEq)).2⟩

/- Splitting takes apart what was joined from whole pieces. -/
theorem splitChars_joinChars
    {sep : Char}
    {pieces : List (List Char)}
    (hSome : pieces ≠ [])
    (hWhole : ∀ piece ∈ pieces, sep ∉ piece) :
    splitChars sep (joinChars sep pieces) = pieces := by
  induction pieces with
  | nil => exact absurd rfl hSome
  | cons piece pieces ih =>
      rw [List.forall_mem_cons] at hWhole
      cases pieces with
      | nil => exact splitChars_of_notMem hWhole.1
      | cons next pieces =>
          rw [joinChars_cons_cons, splitChars_append,
            splitChars_of_notMem hWhole.1, ih (by simp) hWhole.2]
          rfl

/- Joining adds no characters but the separator. -/
theorem eq_or_mem_of_mem_joinChars
    {sep c : Char}
    {pieces : List (List Char)}
    (hMem : c ∈ joinChars sep pieces) :
    c = sep ∨ ∃ piece ∈ pieces, c ∈ piece := by
  induction pieces with
  | nil => simp [joinChars] at hMem
  | cons piece pieces ih =>
      cases pieces with
      | nil => exact Or.inr ⟨piece, by simp, hMem⟩
      | cons next pieces =>
          rw [joinChars_cons_cons, List.mem_append, List.mem_cons]
            at hMem
          rcases hMem with hPiece | rfl | hRest
          · exact Or.inr ⟨piece, by simp, hPiece⟩
          · exact Or.inl rfl
          · rcases ih hRest with rfl | ⟨other, hOther, hIn⟩
            · exact Or.inl rfl
            · exact
                Or.inr ⟨other, List.mem_cons_of_mem _ hOther, hIn⟩

/- No piece holds the separator. -/
theorem notMem_of_mem_splitChars
    {sep : Char}
    {cs piece : List Char}
    (hPiece : piece ∈ splitChars sep cs) :
    sep ∉ piece := by
  induction cs generalizing piece with
  | nil => simp_all [splitChars]
  | cons c cs ih =>
      rcases exists_splitChars_cons sep cs with ⟨first, rest, hPieces⟩
      rw [splitChars, hPieces] at hPiece
      rw [hPieces] at ih
      split at hPiece
      · rcases List.mem_cons.mp hPiece with rfl | hPiece
        · simp
        · exact ih hPiece
      · next hSep =>
          rcases List.mem_cons.mp hPiece with rfl | hPiece
          · rw [List.mem_cons, not_or]
            exact ⟨Ne.symm hSep, ih List.mem_cons_self⟩
          · exact ih (List.mem_cons_of_mem _ hPiece)

/-
  Two separators part a list alike only where neither of them
  stands: a separator that parts it would have to come from
  joining with the other one.
-/
theorem splitChars_eq_splitChars_iff
    {sep sep' : Char}
    (hNe : sep ≠ sep')
    {cs : List Char} :
    splitChars sep cs = splitChars sep' cs ↔ sep ∉ cs ∧ sep' ∉ cs := by
  -- a separator of the list is in no piece, so joining puts it there
  have hFree
      {sep sep' : Char}
      (hNe : sep ≠ sep')
      (hSame : splitChars sep cs = splitChars sep' cs) :
      sep ∉ cs := by
    intro hMem
    rw [← joinChars_splitChars sep' cs, ← hSame] at hMem
    rcases eq_or_mem_of_mem_joinChars hMem with
      hEq | ⟨piece, hPiece, hIn⟩
    · exact hNe hEq
    · exact notMem_of_mem_splitChars hPiece hIn
  constructor
  · intro hSame
    exact ⟨hFree hNe hSame, hFree hNe.symm hSame.symm⟩
  · rintro ⟨hNot, hNot'⟩
    rw [splitChars_of_notMem hNot, splitChars_of_notMem hNot']

/- Pieces stand in the list that they are joined to. -/
theorem isInfix_joinChars
    (sep : Char)
    {piece : List Char}
    {pieces : List (List Char)}
    (hPiece : piece ∈ pieces) :
    piece <:+: joinChars sep pieces := by
  induction pieces with
  | nil => simp at hPiece
  | cons first rest ih =>
      cases rest with
      | nil =>
          rw [List.mem_singleton.mp hPiece]
          exact List.infix_refl _
      | cons second rest =>
          rw [joinChars_cons_cons]
          rcases List.mem_cons.mp hPiece with rfl | hPiece
          · exact (List.prefix_append _ _).isInfix
          · have hSuffix :
                joinChars sep (second :: rest) <:+:
                  first ++ sep :: joinChars sep (second :: rest) :=
              ⟨first ++ [sep], [], by simp⟩
            exact (ih hPiece).trans hSuffix

/- Every piece of a list stands in it. -/
theorem isInfix_of_mem_splitChars
    {sep : Char}
    {cs piece : List Char}
    (hPiece : piece ∈ splitChars sep cs) :
    piece <:+: cs := by
  have hInfix := isInfix_joinChars sep hPiece
  rwa [joinChars_splitChars] at hInfix

end Text

end DesignTokens

------------------------------------------------------------
-- Pieces of a Text
------------------------------------------------------------

namespace DesignTokens

namespace Text

/- The pieces of a text between occurrences of `sep`. -/
def split (sep : Char) (s : String) : List String :=
  (splitChars sep s.toList).map String.ofList

/- Pieces written one after the other with `sep` between them. -/
def join (sep : Char) (pieces : List String) : String :=
  String.ofList (joinChars sep (pieces.map String.toList))

/- A text without the separator is its own single piece. -/
theorem split_of_notMem
    {sep : Char}
    {s : String}
    (hNot : sep ∉ s.toList) :
    split sep s = [s] := by
  rw [split, splitChars_of_notMem hNot, List.map_singleton,
    String.ofList_toList]

/- Splitting yields at least one piece. -/
theorem split_ne_nil
    (sep : Char)
    (s : String) :
    split sep s ≠ [] := by
  simp [split, splitChars_ne_nil]

/- No piece holds the separator. -/
theorem notMem_of_mem_split
    {sep : Char}
    {s piece : String}
    (hPiece : piece ∈ split sep s) :
    sep ∉ piece.toList := by
  rcases List.mem_map.mp hPiece with ⟨cs, hChars, rfl⟩
  rw [String.toList_ofList]
  exact notMem_of_mem_splitChars hChars

/- Two separators part a text alike where neither of them stands. -/
theorem split_eq_split_iff
    {sep sep' : Char}
    (hNe : sep ≠ sep')
    {s : String} :
    split sep s = split sep' s ↔ sep ∉ s.toList ∧ sep' ∉ s.toList := by
  rw [split, split, List.map_inj_right fun _ _ => String.ofList_inj.mp,
    splitChars_eq_splitChars_iff hNe]

/- Splitting takes apart what was joined from whole pieces. -/
theorem split_join
    {sep : Char}
    {pieces : List String}
    (hSome : pieces ≠ [])
    (hWhole : ∀ piece ∈ pieces, sep ∉ piece.toList) :
    split sep (join sep pieces) = pieces := by
  have hId :
      (String.ofList ∘ String.toList : String → String) = id := by
    funext s
    simp
  rw [split, join, String.toList_ofList,
    splitChars_joinChars (by simpa using hSome) (by simpa using hWhole),
    List.map_map, hId, List.map_id]

/- Joining the pieces of a text gives the text back. -/
theorem join_split
    (sep : Char)
    (s : String) :
    join sep (split sep s) = s := by
  have hId :
      (String.toList ∘ String.ofList : List Char → List Char) = id := by
    funext cs
    simp
  simp [join, split, hId, joinChars_splitChars]

end Text

end DesignTokens
