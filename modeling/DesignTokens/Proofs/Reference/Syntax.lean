import DesignTokens.Reference.Basic

/-
  This file tells which texts are references, and which paths of
  keys they are read as.

  Key definitions include:
    * `Reference.IsWellFormed`
    * `IsSpellable`
    * `Divides`

  Key theorems include:
    * `Reference.parse?_eq_some_iff`
    * `Reference.ofJson?_eq_some_iff`
    * `Reference.readings_eq`
    * `Reference.reading_faithful`

  Reading accepts exactly what writing produces, for the paths
  that may stand between braces.  Both ways to divide a path into
  keys can be joined back to it, and they are the same only where
  there is nothing to divide.
-/

------------------------------------------------------------
-- Reading and Writing
------------------------------------------------------------

namespace DesignTokens

namespace Reference

/- A path that may stand between the braces. -/
def IsWellFormed (r : Reference) : Prop :=
  r.path ≠ "" ∧ ∀ c ∈ r.path.toList, isPathChar c = true

/- A body is followed by the closing brace and nothing else. -/
theorem body?_eq_some_iff
    {cs path : List Char} :
    body? cs = some path ↔ cs = path ++ ['\x7d'] := by
  induction cs generalizing path with
  | nil => simp [body?]
  | cons c cs ih =>
      rw [body?.eq_def]
      split
      · simp_all
      · next hEnd =>
          cases hEnd
          cases path with
          | nil => simp
          | cons d path => simp
      · next d ds hMore hEq =>
          cases hEq
          rw [Option.map_eq_some_iff]
          constructor
          · rintro ⟨rest, hRest, rfl⟩
            rw [ih.mp hRest]
            rfl
          · intro hWhole
            cases path with
            | nil =>
                cases hWhole
                exact absurd rfl (hMore rfl)
            | cons d path =>
                rw [List.cons_append] at hWhole
                cases hWhole
                exact ⟨path, ih.mpr rfl, rfl⟩

/- The characters of a reference as it is written. -/
theorem toList_text (r : Reference) :
    r.text.toList = '\x7b' :: (r.path.toList ++ ['\x7d']) := by
  simp [text]

/- Reading accepts exactly what writing produces. -/
theorem parse?_eq_some_iff
    {written : String}
    {r : Reference} :
    parse? written = some r ↔ r.IsWellFormed ∧ written = r.text := by
  constructor
  · intro hParse
    unfold parse? at hParse
    split at hParse
    · next cs hOpen =>
        split at hParse
        · next path hBody =>
            rw [body?_eq_some_iff] at hBody
            split at hParse
            · next hPath =>
                cases hParse
                refine ⟨⟨?_, ?_⟩, ?_⟩
                · simpa using hPath.1
                · simpa using hPath.2
                · rw [← String.toList_inj, toList_text, hOpen, hBody,
                    String.toList_ofList]
            · simp at hParse
        · simp at hParse
    · simp at hParse
  · rintro ⟨hWellFormed, rfl⟩
    have hBody :
        body? (r.path.toList ++ ['\x7d']) = some r.path.toList :=
      body?_eq_some_iff.mpr rfl
    have hPath :
        r.path.toList ≠ [] ∧ r.path.toList.all isPathChar = true :=
      ⟨by simpa using hWellFormed.1, List.all_eq_true.mpr hWellFormed.2⟩
    unfold parse?
    simp only [toList_text, hBody, if_pos hPath, String.ofList_toList]

/- Only texts in braces are references. -/
theorem ofJson?_eq_some_iff
    {j : Json}
    {r : Reference} :
    ofJson? j = some r ↔ r.IsWellFormed ∧ j = .text r.text := by
  cases j <;> simp [ofJson?, parse?_eq_some_iff]

end Reference

end DesignTokens

------------------------------------------------------------
-- Keys That Can Be Spelled
------------------------------------------------------------

namespace DesignTokens

/- A key that is not empty and has no braces and no blanks. -/
def IsSpellable (key : String) : Prop :=
  key ≠ "" ∧
    ∀ c ∈ key.toList,
      c ≠ '\x7b' ∧ c ≠ '\x7d' ∧ Text.isBlank c = false

/- No key of a path holds the separator. -/
def Divides
    (sep : Char)
    (path : List String) : Prop :=
  ∀ key ∈ path, sep ∉ key.toList

instance (key : String) : Decidable (IsSpellable key) :=
  decidable_of_decidable_of_iff
    (p := key ≠ "" ∧
      key.toList.all (fun c =>
        c != '\x7b' && c != '\x7d' && !Text.isBlank c) = true)
    (by simp [IsSpellable, and_assoc])

instance (sep : Char) (path : List String) :
    Decidable (Divides sep path) := by
  unfold Divides
  infer_instance

/- A key can be spelled when it makes a reference by itself. -/
theorem isSpellable_iff
    {key : String} :
    IsSpellable key ↔ (Reference.mk key).IsWellFormed := by
  simp [IsSpellable, Reference.IsWellFormed, Reference.isPathChar,
    and_assoc]

/- The pieces of a text do not hold the separator. -/
theorem divides_split
    (sep : Char)
    (s : String) :
    Divides sep (Text.split sep s) := by
  exact fun _ hKey => Text.notMem_of_mem_split hKey

/- Pieces of a reference can be spelled unless they are empty. -/
theorem isSpellable_of_mem_split
    {r : Reference}
    {sep : Char}
    {key : String}
    (hWellFormed : r.IsWellFormed)
    (hKey : key ∈ Text.split sep r.path)
    (hNe : key ≠ "") :
    IsSpellable key := by
  rw [isSpellable_iff]
  refine ⟨hNe, ?_⟩
  rcases List.mem_map.mp hKey with ⟨piece, hPiece, rfl⟩
  intro c hMem
  rw [String.toList_ofList] at hMem
  exact
    hWellFormed.2 c
      ((Text.isInfix_of_mem_splitChars hPiece).subset hMem)

end DesignTokens

------------------------------------------------------------
-- Readings of a Path
------------------------------------------------------------

namespace DesignTokens

namespace Reference

/- The readings differ where a path holds a dot or a hyphen. -/
theorem hyphenatedReading_ne_iff (r : Reference) :
    r.hyphenatedReading ≠ r.dottedReading ↔
      '.' ∈ r.path.toList ∨ '-' ∈ r.path.toList := by
  rw [hyphenatedReading, dottedReading, ne_eq,
    Text.split_eq_split_iff (by decide),
    Decidable.not_and_iff_not_or_not, Decidable.not_not,
    Decidable.not_not, or_comm]

/-
  The dotted reading comes first, and the hyphenated one second
  where it is another one.
-/
theorem readings_eq (r : Reference) :
    r.readings =
      r.dottedReading ::
        if '.' ∈ r.path.toList ∨ '-' ∈ r.path.toList then
          [r.hyphenatedReading]
        else
          [] := by
  rw [readings]
  split
  · next hSame =>
      rw [if_neg]
      intro hDivided
      exact r.hyphenatedReading_ne_iff.mpr hDivided hSame
  · next hNe => rw [if_pos (r.hyphenatedReading_ne_iff.mp hNe)]

/-
  A text is read as a reference exactly when it is its path in
  braces, a path of one or more characters none of which is a
  brace or a blank.  The first reading of a path divides it at
  its dots.  There is a second one exactly when the path holds a
  dot or a hyphen; it divides the path at its hyphens, and it is
  not the first.  Each is joined back to the path.
-/
theorem reading_faithful
    (written : String)
    (r : Reference) :
    (parse? written = some r ↔
        IsSpellable r.path ∧ written = "\x7b" ++ r.path ++ "\x7d")
      ∧ (∃ first,
          r.readings[0]? = some first
            ∧ Divides '.' first
            ∧ Text.join '.' first = r.path)
      ∧ ((∃ second, r.readings[1]? = some second) ↔
          '.' ∈ r.path.toList ∨ '-' ∈ r.path.toList)
      ∧ (∀ second,
          r.readings[1]? = some second →
            Divides '-' second
              ∧ Text.join '-' second = r.path
              ∧ r.readings[0]? ≠ some second)
      ∧ r.readings.length ≤ 2 := by
  have hRead :
      parse? written = some r ↔
        IsSpellable r.path ∧ written = r.text := by
    rw [parse?_eq_some_iff, isSpellable_iff]
  rw [readings_eq]
  refine ⟨hRead, ⟨_, rfl, divides_split '.' r.path,
    Text.join_split '.' r.path⟩, ?isSecond, ?second, ?length⟩
  case isSecond => split <;> simp_all
  case second =>
    intro second hSecond
    split at hSecond
    · next hDivided =>
        obtain rfl : r.hyphenatedReading = second := by
          simpa using hSecond
        refine
          ⟨divides_split '-' r.path, Text.join_split '-' r.path, ?_⟩
        intro hFirst
        exact
          r.hyphenatedReading_ne_iff.mpr hDivided
            (Option.some.inj hFirst).symm
    · simp at hSecond
  case length => split <;> simp

end Reference

end DesignTokens
