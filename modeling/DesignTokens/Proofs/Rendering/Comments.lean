import DesignTokens.Proofs.Rendering.Stylesheet

/-
  This file defines reading a comment of a stylesheet to its
  end, and proves that what was authored stays in the comments
  that it is written in.

  Key definitions include:
    * `Stylesheet.closeComment?`
    * `Stylesheet.linesAbove`
    * `Stylesheet.linesBelow`

  Key theorems include:
    * `Stylesheet.closeComment?_eq_some_iff`
    * `Stylesheet.guardComment_eq_self_iff`
    * `Stylesheet.closeComment?_closing`
    * `Stylesheet.closeComment?_render`
    * `Store.authored_text_stays_in_comments`

  A comment ends at the first star that a slash follows.  There
  is none in guarded text, and none where guarded text meets the
  characters around it, so every comment ends where the
  stylesheet closes it.
-/

------------------------------------------------------------
-- Reading a Comment
------------------------------------------------------------

namespace DesignTokens

namespace Stylesheet

/-
  Read a comment to its end: the characters before the first
  star that a slash follows, and those after the two.
-/
def closeComment? : List Char → Option (List Char × List Char)
| [] => none
| '*' :: '/' :: cs => some ([], cs)
| c :: cs =>
    (closeComment? cs).map fun (inside, rest) => (c :: inside, rest)

/- A comment is closed by a star with a slash right after it. -/
theorem unclosing_iff_not_infix
    {cs : List Char} :
    Unclosing cs ↔ ¬ "*/".toList <:+: cs := by
  rw [Unclosing, List.isChain_iff_forall_rel_of_append_cons_cons]
  constructor
  · rintro hApart ⟨front, back, hWhole⟩
    have hSplit : cs = front ++ '*' :: '/' :: back := by
      simpa using hWhole.symm
    exact hApart hSplit ⟨rfl, rfl⟩
  · rintro hNot c d front back rfl ⟨rfl, rfl⟩
    exact hNot ⟨front, back, by simp⟩

/- A comment goes on unless a star and a slash stand at its front. -/
theorem closeComment?_cons
    {c : Char}
    {cs : List Char}
    (hOpen : ¬ (c = '*' ∧ cs.head? = some '/')) :
    closeComment? (c :: cs) =
      (closeComment? cs).map fun (inside, rest) =>
        (c :: inside, rest) := by
  rw [closeComment?]
  rintro rest rfl rfl
  exact hOpen ⟨rfl, rfl⟩

/- What follows the star that ends a comment is not at its front. -/
theorem head?_append_star
    (inside after : List Char) :
    (inside ++ '*' :: after).head? = (inside ++ ['*']).head? := by
  cases inside <;> rfl

/- A comment ends at the first star that a slash follows. -/
theorem closeComment?_eq_some_iff
    {cs inside rest : List Char} :
    closeComment? cs = some (inside, rest) ↔
      cs = inside ++ '*' :: '/' :: rest
        ∧ Unclosing (inside ++ ['*']) := by
  constructor
  · intro hClose
    induction cs generalizing inside with
    | nil => simp [closeComment?] at hClose
    | cons c cs ih =>
        by_cases hEnd : c = '*' ∧ cs.head? = some '/'
        · rcases hEnd with ⟨rfl, hSlash⟩
          rcases List.head?_eq_some_iff.mp hSlash with ⟨after, rfl⟩
          cases hClose
          exact ⟨rfl, List.isChain_singleton '*'⟩
        · rw [closeComment?_cons hEnd, Option.map_eq_some_iff] at hClose
          rcases hClose with ⟨⟨tail, _⟩, hTail, hPair⟩
          cases hPair
          rcases ih hTail with ⟨rfl, hUnclosing⟩
          refine ⟨rfl, List.isChain_cons.mpr ⟨?_, hUnclosing⟩⟩
          rintro d hSlash ⟨rfl, rfl⟩
          exact hEnd ⟨rfl, (head?_append_star tail _).trans hSlash⟩
  · rintro ⟨rfl, hUnclosing⟩
    induction inside with
    | nil => rfl
    | cons c inside ih =>
        rw [List.cons_append, Unclosing, List.isChain_cons]
          at hUnclosing
        have hOpen :
            ¬ (c = '*'
              ∧ (inside ++ '*' :: '/' :: rest).head? = some '/') := by
          rintro ⟨rfl, hSlash⟩
          rw [head?_append_star] at hSlash
          exact hUnclosing.1 '/' hSlash ⟨rfl, rfl⟩
        rw [List.cons_append, closeComment?_cons hOpen,
          ih hUnclosing.2]
        rfl

/- Guarding changes a text exactly when it would close a comment. -/
theorem guardComment_eq_self_iff
    {s : String} :
    guardComment s = s ↔ Unclosing s.toList := by
  have hChars (cs : List Char) (hUnclosing : Unclosing cs) :
      guardChars cs = cs := by
    induction cs using guardChars.induct with
    | case1 => rfl
    | case2 cs =>
        exact
          absurd ⟨rfl, rfl⟩ (List.isChain_cons_cons.mp hUnclosing).1
    | case3 c cs hNot ih =>
        rw [guardChars, ih (List.isChain_cons.mp hUnclosing).2]
        exact hNot
  constructor
  · intro hSame
    rw [← hSame]
    exact unclosing_guardComment s
  · intro hUnclosing
    rw [guardComment, hChars s.toList hUnclosing, String.ofList_toList]

example : guardComment "**//" = "** //" := by
  decide

end Stylesheet

end DesignTokens

------------------------------------------------------------
-- Lines around a Comment
------------------------------------------------------------

namespace DesignTokens

namespace Stylesheet

/- The lines of the opening comment, up to the one that closes it. -/
def openingLines (tokens : List DeprecatedToken) : List String :=
  ["/**", " * " ++ banner] ++ deprecatedLines tokens

/- The lines of some layers of an emission. -/
def linesOf
    (descriptions : Bool)
    (emission : Emission)
    (layers : List Collection) : List String :=
  layers.flatMap fun c =>
    layerLines descriptions c (emission.entries.get c)

/-
  The lines of a stylesheet above a declaration: those of the
  opening comment and of earlier layers, and those of its own
  layer down to the entries before it.
-/
def linesAbove
    (descriptions : Bool)
    (emission : Emission)
    (c : Collection)
    (earlier : List Entry) : List String :=
  openingLines emission.deprecated ++ [" */"]
    ++ linesOf descriptions emission (Collection.all.takeWhile (· ≠ c))
    ++ ["", "/* " ++ c.title ++ " */", ":root \x7b"]
    ++ earlier.map (declaration descriptions)

/-
  The lines of a stylesheet below a declaration: those of the
  entries after it, and of later layers.
-/
def linesBelow
    (descriptions : Bool)
    (emission : Emission)
    (c : Collection)
    (later : List Entry) : List String :=
  later.map (declaration descriptions) ++ ["\x7d"]
    ++ linesOf descriptions emission
        (Collection.all.dropWhile (· ≠ c)).tail

variable {descriptions : Bool}
variable {emission : Emission}

/- The opening comment is followed by all layers. -/
theorem lines_eq_opening :
    lines descriptions emission =
      openingLines emission.deprecated
        ++ " */" :: linesOf descriptions emission Collection.all := by
  simp [lines, openingLines, linesOf]

/- A declaration stands between the lines above and below. -/
theorem lines_eq_declaration
    {c : Collection}
    {earlier later : List Entry}
    {entry : Entry}
    (hEntries :
      emission.entries.get c = earlier ++ entry :: later) :
    lines descriptions emission =
      linesAbove descriptions emission c earlier
        ++ declaration descriptions entry
          :: linesBelow descriptions emission c later := by
  have hLayers :
      Collection.all =
        Collection.all.takeWhile (· ≠ c)
          ++ c :: (Collection.all.dropWhile (· ≠ c)).tail := by
    cases c <;> rfl
  rw [lines_eq_opening, hLayers]
  simp [linesOf, linesAbove, linesBelow, layerLines, hEntries]

end Stylesheet

end DesignTokens

------------------------------------------------------------
-- Where Comments End
------------------------------------------------------------

namespace DesignTokens

namespace Stylesheet

/- Lines that close no comment close none together. -/
theorem unclosing_text
    {lines : List String}
    (hLines : ∀ s ∈ lines, Unclosing s.toList) :
    Unclosing (text lines).toList := by
  induction lines with
  | nil => exact List.isChain_nil
  | cons s lines ih =>
      rw [List.forall_mem_cons] at hLines
      have hLine : Unclosing (s ++ "\n").toList := by
        rw [String.toList_append]
        exact hLines.1.append (by decide) (Or.inr (by decide))
      rw [text_cons, String.toList_append]
      exact hLine.append (ih hLines.2) (Or.inl (by simp))

/- A comment whose text closes none ends where it is closed. -/
theorem closeComment?_closing
    {s : String}
    (hUnclosing : Unclosing s.toList)
    (below : String) :
    closeComment? (s ++ " */" ++ below).toList =
      some ((s ++ " ").toList, below.toList) := by
  have hInside : Unclosing ((s ++ " ").toList ++ ['*']) := by
    rw [String.toList_append, List.append_assoc]
    exact hUnclosing.append (by decide) (Or.inr (by decide))
  rw [closeComment?_eq_some_iff]
  exact ⟨by simp, hInside⟩

/- The opening comment ends on its last line. -/
theorem closeComment?_render
    {emission : Emission}
    (hNamed : Named emission)
    (descriptions : Bool) :
    closeComment? (render descriptions emission).toList =
      some
        ((text (openingLines emission.deprecated) ++ " ").toList,
          ("\n" ++ text
            (linesOf descriptions emission Collection.all)).toList) := by
  have hOpening :
      Unclosing (text (openingLines emission.deprecated)).toList :=
    unclosing_text (unclosing_comment hNamed)
  have hRender :
      render descriptions emission =
        text (openingLines emission.deprecated) ++ " */"
          ++ ("\n" ++ text
            (linesOf descriptions emission Collection.all)) := by
    rw [render_eq_text, lines_eq_opening, text_append, text_cons]
    simp only [String.append_assoc]
  rw [hRender, closeComment?_closing hOpening]

/- A replacement stands on the line of its token, guarded. -/
theorem deprecatedLine_eq
    {token : DeprecatedToken}
    {replacement : String}
    (hReplaced : token.replacedBy = some replacement)
    (hSome : replacement ≠ "") :
    deprecatedLine token =
      " *   " ++ token.identifier ++ " -> "
        ++ guardComment replacement := by
  simp [deprecatedLine, hReplaced, hSome, String.append_assoc]

/- A description stands in the comment behind its declaration. -/
theorem declaration_eq
    {entry : Entry}
    {description : String}
    (hDescribed : entry.description = some description)
    (hSome : description ≠ "") :
    declaration true entry =
      "  " ++ entry.identifier ++ ": " ++ entry.value ++ ";" ++ " /* "
        ++ (guardComment description ++ " */") := by
  have hComment :
      trailingComment true entry =
        " /* " ++ guardComment description ++ " */" := by
    simp [trailingComment, hDescribed, hSome]
  rw [declaration, hComment]
  simp only [String.append_assoc]

end Stylesheet

namespace Store

open Stylesheet

/-
  What was authored stays in the comments of a stylesheet.  The
  first star that a slash follows closes the opening comment, on
  its last line.  From the opening of the comment behind a
  declaration on, the first one is where this comment is closed.
  A replacement stands on the line of its token and a description
  in its comment as they are guarded, and guarding changes those
  texts only that hold a star and a slash after it.
-/
theorem authored_text_stays_in_comments
    (store : Store)
    (options : EmitOptions)
    (descriptions : Bool) :
    let emission := store.emit options
    let stylesheet (descriptions : Bool) : String :=
      emission.render ⟨.css, descriptions⟩
    closeComment? (stylesheet descriptions).toList =
        some
          ((text (openingLines emission.deprecated) ++ " ").toList,
            ("\n" ++ text
              (linesOf descriptions emission Collection.all)).toList)
      ∧ (∀ earlier token later replacement,
          emission.deprecated = earlier ++ token :: later →
            token.replacedBy = some replacement →
              replacement ≠ "" →
                text (openingLines emission.deprecated) =
                  text (["/**", " * " ++ banner]
                      ++ [" *", " * Deprecated tokens:"]
                      ++ earlier.map deprecatedLine)
                    ++ " *   " ++ token.identifier ++ " -> "
                    ++ guardComment replacement ++ "\n"
                    ++ text (later.map deprecatedLine))
      ∧ (∀ c earlier entry later description,
          emission.entries.get c = earlier ++ entry :: later →
            entry.description = some description →
              description ≠ "" →
                ∃ comment : String,
                  stylesheet true =
                      text (linesAbove true emission c earlier)
                        ++ "  " ++ entry.identifier ++ ": "
                        ++ entry.value ++ ";" ++ " /* " ++ comment
                    ∧ closeComment? comment.toList =
                        some
                          ((guardComment description ++ " ").toList,
                            ("\n" ++ text
                              (linesBelow true emission c
                                later)).toList))
      ∧ ∀ s, guardComment s = s ↔ ¬ "*/".toList <:+: s.toList := by
  intro emission stylesheet
  refine ⟨?opening, ?replacement, ?description, ?guarded⟩
  case opening =>
    exact closeComment?_render (store.named_emit options) descriptions
  case replacement =>
    intro earlier token later replacement hTokens hReplaced hSome
    have hLines :
        openingLines emission.deprecated =
          ["/**", " * " ++ banner]
            ++ [" *", " * Deprecated tokens:"]
            ++ earlier.map deprecatedLine
            ++ deprecatedLine token :: later.map deprecatedLine := by
      simp [openingLines, deprecatedLines, hTokens]
    rw [hLines, text_append, text_cons,
      deprecatedLine_eq hReplaced hSome]
    simp only [String.append_assoc]
  case description =>
    intro c earlier entry later description hEntries hDescribed hSome
    refine
      ⟨_, ?_,
        closeComment?_closing (unclosing_guardComment description)
          ("\n" ++ text (linesBelow true emission c later))⟩
    change render true emission = _
    rw [render_eq_text, lines_eq_declaration hEntries, text_append,
      text_cons, declaration_eq hDescribed hSome]
    simp only [String.append_assoc]
  case guarded =>
    intro s
    rw [guardComment_eq_self_iff, unclosing_iff_not_infix]

end Store

end DesignTokens
