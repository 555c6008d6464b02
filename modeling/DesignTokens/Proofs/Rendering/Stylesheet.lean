import DesignTokens.Proofs.Emission.Accounts
import DesignTokens.Proofs.Naming
import DesignTokens.Rendering.Basic
import DesignTokens.Text.Split
import Mathlib.Data.List.Chain

/-
  This file defines reading the declarations of a stylesheet
  back, line by line, and proves when the reading gives what the
  emission holds.

  Key definitions include:
    * `Stylesheet.declared?`
    * `Stylesheet.takeLayer?`
    * `Stylesheet.read?`
    * `Stylesheet.Unclosing`

  Key theorems include:
    * `Stylesheet.unclosing_guardChars`
    * `Stylesheet.takeLayer?_layerLines`
    * `Stylesheet.read?_render_iff`
    * `Store.stylesheet_reads_back_iff`
    * `Store.brokenLine_misread`

  Identifiers and titles keep to one line, and nothing that was
  authored ends the opening comment early.  Values are written
  as they are.  So the reading is right exactly when no value
  holds a line feed.
-/

------------------------------------------------------------
-- Reading Lines
------------------------------------------------------------

namespace DesignTokens

namespace Stylesheet

/-
  Read a line that declares a variable: two spaces, an
  identifier, a colon and a space, a value, and a semicolon.
-/
def declared? : List Char → Option (String × String)
| ' ' :: ' ' :: cs =>
    match cs.dropWhile isNameChar with
    | ':' :: ' ' :: rest =>
        if rest.getLast? = some ';' then
          some
            (String.ofList (cs.takeWhile isNameChar),
              String.ofList rest.dropLast)
        else
          none
    | _ => none
| _ => none

/- Take declarations up to the closing line. -/
def takeDeclared? :
    List (List Char) →
      Option (List (String × String) × List (List Char))
| [] => none
| line :: lines =>
    if line = ['\x7d'] then
      some ([], lines)
    else do
      let first ← declared? line
      let (later, rest) ← takeDeclared? lines
      return (first :: later, rest)

/-
  Take the declarations of a layer.  An empty line, the title
  and the opening line go before them.
-/
def takeLayer?
    (c : Collection) :
    List (List Char) →
      Option (List (String × String) × List (List Char))
| blank :: title :: opening :: lines =>
    if blank = [] ∧ title = ("/* " ++ c.title ++ " */").toList
        ∧ opening = ":root \x7b".toList then
      takeDeclared? lines
    else
      none
| _ => none

/- The lines after the one that closes the opening comment. -/
def afterComment? :
    List (List Char) → Option (List (List Char))
| [] => none
| line :: lines =>
    if line = " */".toList then some lines else afterComment? lines

/-
  Read the declarations of every layer from lines.  Nothing
  stands after the last layer.
-/
def readLines?
    (lines : List (List Char)) :
    Option (Layers (List (String × String))) := do
  let rest ← afterComment? lines
  let (primitives, rest) ← takeLayer? .primitives rest
  let (semantic, rest) ← takeLayer? .semantic rest
  let (component, rest) ← takeLayer? .component rest
  if rest = [[]] then
    some ⟨primitives, semantic, component⟩
  else
    none

/- Read the declarations of every layer from a stylesheet. -/
def read?
    (s : String) : Option (Layers (List (String × String))) :=
  readLines? (Text.splitChars '\n' s.toList)

end Stylesheet

/- The identifiers and values of the variables of every layer. -/
def Emission.declarations
    (emission : Emission) : Layers (List (String × String)) :=
  emission.entries.map
    (List.map fun entry => (entry.identifier, entry.value))

end DesignTokens

------------------------------------------------------------
-- The Opening Comment
------------------------------------------------------------

namespace DesignTokens

namespace Stylesheet

/- No slash follows a star, so no comment is closed. -/
def Unclosing (cs : List Char) : Prop :=
  cs.IsChain fun c d => ¬ (c = '*' ∧ d = '/')

instance (cs : List Char) : Decidable (Unclosing cs) := by
  unfold Unclosing
  infer_instance

/- Guarding keeps the first character. -/
theorem head?_guardChars
    (cs : List Char) :
    (guardChars cs).head? = cs.head? := by
  unfold guardChars
  split <;> rfl

/- Guarded characters close no comment. -/
theorem unclosing_guardChars
    (cs : List Char) :
    Unclosing (guardChars cs) := by
  induction cs using guardChars.induct with
  | case1 => exact List.isChain_nil
  | case2 cs ih =>
      -- the space that was put in parts the star from the slash
      have hSlash : Unclosing ('/' :: guardChars cs) :=
        List.isChain_cons.mpr ⟨by simp, ih⟩
      have hSpace : Unclosing (' ' :: '/' :: guardChars cs) :=
        List.isChain_cons.mpr ⟨by simp, hSlash⟩
      rw [guardChars]
      exact List.isChain_cons.mpr ⟨by simp, hSpace⟩
  | case3 c cs hNot ih =>
      rw [guardChars]
      · refine List.isChain_cons.mpr ⟨?_, ih⟩
        rintro d hHead ⟨rfl, rfl⟩
        rw [head?_guardChars] at hHead
        rcases List.head?_eq_some_iff.mp hHead with ⟨rest, rfl⟩
        exact hNot rest rfl rfl
      · exact hNot

theorem unclosing_guardComment (s : String) :
    Unclosing (guardComment s).toList := by
  rw [guardComment, String.toList_ofList]
  exact unclosing_guardChars s.toList

/- Two parts close no comment where a star meets no slash. -/
theorem Unclosing.append
    {cs ds : List Char}
    (hFirst : Unclosing cs)
    (hSecond : Unclosing ds)
    (hSeam : cs.getLast? ≠ some '*' ∨ ds.head? ≠ some '/') :
    Unclosing (cs ++ ds) := by
  refine List.isChain_append.mpr ⟨hFirst, hSecond, ?_⟩
  rintro c hLast d hHead ⟨rfl, rfl⟩
  exact hSeam.elim (absurd hLast) (absurd hHead)

theorem unclosing_of_isNameText
    {s : String}
    (hName : IsNameText s) :
    Unclosing s.toList := by
  apply List.Pairwise.isChain
  rw [List.pairwise_iff_forall_sublist]
  rintro c d hSublist ⟨rfl, -⟩
  have hMem : '*' ∈ s.toList := hSublist.subset List.mem_cons_self
  exact absurd (hName '*' hMem) (by decide)

/- What a deprecated token is replaced by closes no comment. -/
theorem unclosing_deprecatedLine
    {token : DeprecatedToken}
    (hName : IsNameText token.identifier) :
    Unclosing (deprecatedLine token).toList := by
  have hStart : Unclosing (" *   " ++ token.identifier).toList := by
    rw [String.toList_append]
    exact
      Unclosing.append (by decide) (unclosing_of_isNameText hName)
        (Or.inl (by decide))
  rw [deprecatedLine, String.toList_append]
  split
  · exact hStart.append (by decide) (Or.inr (by decide))
  · split
    · exact hStart.append (by decide) (Or.inr (by decide))
    · next replacement _ _ =>
        have hArrow : Unclosing " -> ".toList := by decide
        have hGuarded := unclosing_guardComment replacement
        have hEnd :
            Unclosing (" -> " ++ guardComment replacement).toList := by
          rw [String.toList_append]
          exact hArrow.append hGuarded (Or.inl (by decide))
        exact hStart.append hEnd (Or.inr (by simp))

end Stylesheet

end DesignTokens

------------------------------------------------------------
-- Lines of a Stylesheet
------------------------------------------------------------

namespace DesignTokens

namespace Stylesheet

/- The lines that texts break into at the line feeds they hold. -/
def broken (texts : List String) : List (List Char) :=
  texts.flatMap fun s => Text.splitChars '\n' s.toList

theorem broken_append (texts texts' : List String) :
    broken (texts ++ texts') = broken texts ++ broken texts' :=
  List.flatMap_append

/- A text without a line feed is a line. -/
theorem broken_cons
    {s : String}
    (hLine : '\n' ∉ s.toList)
    (texts : List String) :
    broken (s :: texts) = s.toList :: broken texts := by
  rw [broken, List.flatMap_cons, Text.splitChars_of_notMem hLine]
  rfl

/- The text of lines, each with its end. -/
def text (lines : List String) : String :=
  String.join (lines.map (· ++ "\n"))

theorem text_append (above below : List String) :
    text (above ++ below) = text above ++ text below := by
  simp [text]

theorem text_cons (line : String) (below : List String) :
    text (line :: below) = line ++ "\n" ++ text below := by
  simp [text]

/- A stylesheet is the text of its lines. -/
theorem render_eq_text
    (descriptions : Bool)
    (emission : Emission) :
    render descriptions emission = text (lines descriptions emission) :=
  rfl

/- A text breaks into what its lines break into. -/
theorem splitChars_text
    (texts : List String) :
    Text.splitChars '\n' (text texts).toList =
      broken texts ++ [[]] := by
  induction texts with
  | nil => rfl
  | cons s texts ih =>
      have hFeed :
          (text (s :: texts)).toList =
            s.toList ++ '\n' :: (text texts).toList := by
        simp [text_cons]
      rw [hFeed, Text.splitChars_append, ih, ← List.append_assoc]
      rfl

/- A stylesheet is read line by line. -/
theorem read?_render_eq
    (descriptions : Bool)
    (emission : Emission) :
    read? (render descriptions emission) =
      readLines? (broken (lines descriptions emission) ++ [[]]) := by
  rw [read?, render_eq_text, splitChars_text]

/- The opening comment ends where it is closed. -/
theorem afterComment?_broken
    {texts : List String}
    (hUnclosing : ∀ s ∈ texts, Unclosing s.toList)
    (rest : List (List Char)) :
    afterComment? (broken texts ++ " */".toList :: rest) = some rest := by
  have hLines : ∀ line ∈ broken texts, line ≠ " */".toList := by
    rintro line hLine rfl
    rcases List.mem_flatMap.mp hLine with ⟨s, hMem, hPiece⟩
    rcases Text.isInfix_of_mem_splitChars hPiece with
      ⟨front, back, hWhole⟩
    have hChain := hUnclosing s hMem
    rw [← hWhole] at hChain
    have hLine : Unclosing " */".toList :=
      hChain.left_of_append.right_of_append
    exact absurd hLine (by decide)
  generalize broken texts = lines at hLines
  induction lines with
  | nil => rfl
  | cons line lines ih =>
      rw [List.cons_append, afterComment?,
        if_neg (hLines line List.mem_cons_self)]
      exact ih fun l hMem => hLines l (List.mem_cons_of_mem _ hMem)

/- The characters of a declaration. -/
theorem toList_declaration
    (entry : Entry) :
    (declaration false entry).toList =
      ' ' :: ' ' :: (entry.identifier.toList
        ++ ':' :: ' ' :: (entry.value.toList ++ [';'])) := by
  have hPlain : trailingComment false entry = "" := by
    unfold trailingComment
    split <;> simp
  simp [declaration, hPlain]

/- A declaration is read back. -/
theorem declared?_declaration
    {entry : Entry}
    (hName : IsNameText entry.identifier) :
    declared? (declaration false entry).toList =
      some (entry.identifier, entry.value) := by
  rw [toList_declaration, declared?,
    List.dropWhile_append_of_pos hName,
    List.takeWhile_append_of_pos hName]
  simp [isNameChar]

/- Declarations of one line each are read back. -/
theorem takeDeclared?_declarations
    {entries : List Entry}
    (hNames : ∀ entry ∈ entries, IsNameText entry.identifier)
    (hValues : ∀ entry ∈ entries, '\n' ∉ entry.value.toList)
    (rest : List (List Char)) :
    takeDeclared?
        (broken (entries.map (declaration false)) ++ ['\x7d'] :: rest) =
      some
        (entries.map fun entry => (entry.identifier, entry.value),
          rest) := by
  induction entries with
  | nil => rfl
  | cons entry entries ih =>
      have hName := hNames entry List.mem_cons_self
      have hLine : '\n' ∉ (declaration false entry).toList := by
        have hIdentifier : '\n' ∉ entry.identifier.toList := fun hMem =>
          absurd (hName _ hMem) (by decide)
        simp [toList_declaration, hIdentifier,
          hValues entry List.mem_cons_self]
      have hOpen : (declaration false entry).toList ≠ ['\x7d'] := by
        simp [toList_declaration]
      have hRest :=
        ih (fun e hMem => hNames e (List.mem_cons_of_mem _ hMem))
          (fun e hMem => hValues e (List.mem_cons_of_mem _ hMem))
      rw [List.map_cons, broken_cons hLine, List.cons_append,
        takeDeclared?, if_neg hOpen, declared?_declaration hName, hRest]
      rfl

/- The lines of a layer are read back. -/
theorem takeLayer?_layerLines
    {c : Collection}
    {entries : List Entry}
    (hNames : ∀ entry ∈ entries, IsNameText entry.identifier)
    (hValues : ∀ entry ∈ entries, '\n' ∉ entry.value.toList)
    (rest : List (List Char)) :
    takeLayer? c (broken (layerLines false c entries) ++ rest) =
      some
        (entries.map fun entry => (entry.identifier, entry.value),
          rest) := by
  have hTitle : '\n' ∉ ("/* " ++ c.title ++ " */").toList := by
    cases c <;> decide
  have hClose : broken ["\x7d"] = [['\x7d']] := by decide
  rw [layerLines, broken_append, broken_append,
    broken_cons (by decide), broken_cons hTitle,
    broken_cons (by decide), hClose, List.append_assoc,
    List.append_assoc, List.singleton_append]
  have hDeclared := takeDeclared?_declarations hNames hValues rest
  simp only [List.cons_append]
  rw [takeLayer?, if_pos ⟨rfl, rfl, rfl⟩]
  exact hDeclared

end Stylesheet

end DesignTokens

------------------------------------------------------------
-- Reading Stylesheets Back
------------------------------------------------------------

namespace DesignTokens

namespace Stylesheet

/- All identifiers of an emission keep to their characters. -/
structure Named (emission : Emission) : Prop where
  entries :
    ∀ c, ∀ entry ∈ emission.entries.get c,
      IsNameText entry.identifier
  deprecated :
    ∀ token ∈ emission.deprecated, IsNameText token.identifier

/- No line of the opening comment closes it early. -/
theorem unclosing_comment
    {emission : Emission}
    (hNamed : Named emission) :
    ∀ s ∈ ["/**", " * " ++ banner]
        ++ deprecatedLines emission.deprecated,
      Unclosing s.toList := by
  intro s hMem
  have hOpen : ∀ t ∈ ["/**", " * " ++ banner], Unclosing t.toList := by
    decide
  rcases List.mem_append.mp hMem with hMem | hMem
  · exact hOpen s hMem
  · rw [deprecatedLines] at hMem
    split at hMem
    · simp at hMem
    · rcases List.mem_cons.mp hMem with rfl | hMem
      · decide
      · rcases List.mem_cons.mp hMem with rfl | hMem
        · decide
        · rcases List.mem_map.mp hMem with ⟨token, hToken, rfl⟩
          exact
            unclosing_deprecatedLine (hNamed.deprecated token hToken)

/- Values of one line each are read back with their identifiers. -/
theorem read?_render
    {emission : Emission}
    (hNamed : Named emission)
    (hValues :
      ∀ c, ∀ entry ∈ emission.entries.get c,
        '\n' ∉ entry.value.toList) :
    read? (render false emission) = some emission.declarations := by
  have hLayer (c : Collection) :=
    takeLayer?_layerLines (c := c) (hNamed.entries c) (hValues c)
  have hComment := afterComment?_broken (unclosing_comment hNamed)
  have hEnd : broken [" */"] = [" */".toList] := by decide
  rw [read?_render_eq, lines, broken_append, broken_append _ [" */"],
    hEnd, readLines?, List.append_assoc, List.append_assoc,
    List.singleton_append, hComment]
  simp only [Collection.all, List.flatMap_cons, List.flatMap_nil,
    List.append_nil, broken_append, List.append_assoc,
    Option.bind_eq_bind, Option.bind_some, hLayer]
  rfl

/- Lines that have been broken at every line feed. -/
def Unbroken (lines : List (List Char)) : Prop :=
  ∀ line ∈ lines, '\n' ∉ line

/- What is declared on a line without a line feed has none. -/
theorem notMem_of_declared?
    {line : List Char}
    {d : String × String}
    (hLine : '\n' ∉ line)
    (hDeclared : declared? line = some d) :
    '\n' ∉ d.2.toList := by
  unfold declared? at hDeclared
  split at hDeclared
  · next cs =>
      split at hDeclared
      · next rest hDrop =>
          split at hDeclared
          · cases hDeclared
            intro hMem
            rw [String.toList_ofList] at hMem
            have hRest := (List.dropLast_sublist rest).subset hMem
            have hSuffix := List.dropWhile_suffix isNameChar (l := cs)
            rw [hDrop] at hSuffix
            have hCs : '\n' ∈ cs :=
              hSuffix.subset (List.mem_cons_of_mem _
                (List.mem_cons_of_mem _ hRest))
            exact hLine
              (List.mem_cons_of_mem _ (List.mem_cons_of_mem _ hCs))
          · cases hDeclared
      · cases hDeclared
  · cases hDeclared

/- So declarations from unbroken lines hold no line feed. -/
theorem notMem_of_takeDeclared?
    {lines rest : List (List Char)}
    {ds : List (String × String)}
    (hLines : Unbroken lines)
    (hTake : takeDeclared? lines = some (ds, rest)) :
    (∀ d ∈ ds, '\n' ∉ d.2.toList) ∧ Unbroken rest := by
  induction lines generalizing ds with
  | nil => simp [takeDeclared?] at hTake
  | cons line lines ih =>
      have hLater : Unbroken lines := fun l hMem =>
        hLines l (List.mem_cons_of_mem _ hMem)
      rw [takeDeclared?] at hTake
      split at hTake
      · cases hTake
        exact ⟨by simp, hLater⟩
      · simp only [Option.bind_eq_bind, Option.bind_eq_some_iff]
          at hTake
        rcases hTake with
          ⟨first, hFirst, ⟨later, rest'⟩, hRest, hPair⟩
        cases hPair
        rcases ih hLater hRest with ⟨hValues, hUnbroken⟩
        refine ⟨?_, hUnbroken⟩
        intro d hMem
        rcases List.mem_cons.mp hMem with rfl | hMem
        · exact
            notMem_of_declared? (hLines line List.mem_cons_self) hFirst
        · exact hValues d hMem

theorem notMem_of_takeLayer?
    {c : Collection}
    {lines rest : List (List Char)}
    {ds : List (String × String)}
    (hLines : Unbroken lines)
    (hTake : takeLayer? c lines = some (ds, rest)) :
    (∀ d ∈ ds, '\n' ∉ d.2.toList) ∧ Unbroken rest := by
  unfold takeLayer? at hTake
  split at hTake
  · next blank title opening lines =>
      split at hTake
      · apply notMem_of_takeDeclared? _ hTake
        intro line hMem
        exact hLines line (by simp [hMem])
      · cases hTake
  · cases hTake

theorem unbroken_of_afterComment?
    {lines rest : List (List Char)}
    (hLines : Unbroken lines)
    (hAfter : afterComment? lines = some rest) :
    Unbroken rest := by
  induction lines with
  | nil => simp [afterComment?] at hAfter
  | cons line lines ih =>
      have hLater : Unbroken lines := fun l hMem =>
        hLines l (List.mem_cons_of_mem _ hMem)
      rw [afterComment?] at hAfter
      split at hAfter
      · cases hAfter
        exact hLater
      · exact ih hLater hAfter

/- No value that is read from a text holds a line feed. -/
theorem notMem_of_read?
    {s : String}
    {found : Layers (List (String × String))}
    (hRead : read? s = some found)
    (c : Collection) :
    ∀ d ∈ found.get c, '\n' ∉ d.2.toList := by
  have hLines : Unbroken (Text.splitChars '\n' s.toList) :=
    fun _ hLine => Text.notMem_of_mem_splitChars hLine
  simp only [read?, readLines?, Option.bind_eq_bind,
    Option.bind_eq_some_iff] at hRead
  rcases hRead with
    ⟨rest₀, hAfter, ⟨primitives, rest₁⟩, hPrimitives,
      ⟨semantic, rest₂⟩, hSemantic, ⟨component, rest₃⟩, hComponent,
      hFound⟩
  have hRest := unbroken_of_afterComment? hLines hAfter
  rcases notMem_of_takeLayer? hRest hPrimitives with ⟨h₁, hRest⟩
  rcases notMem_of_takeLayer? hRest hSemantic with ⟨h₂, hRest⟩
  rcases notMem_of_takeLayer? hRest hComponent with ⟨h₃, -⟩
  split at hFound
  · cases hFound
    cases c with
    | primitives => exact h₁
    | semantic => exact h₂
    | component => exact h₃
  · cases hFound

/- Reading is right exactly when no value holds a line feed. -/
theorem read?_render_iff
    {emission : Emission}
    (hNamed : Named emission) :
    read? (render false emission) = some emission.declarations ↔
      ∀ c, ∀ entry ∈ emission.entries.get c,
        '\n' ∉ entry.value.toList := by
  constructor
  · intro hRead c entry hMem
    apply notMem_of_read? hRead c (entry.identifier, entry.value)
    rw [Emission.declarations, Layers.get_map]
    exact List.mem_map.mpr ⟨entry, hMem, rfl⟩
  · exact read?_render hNamed

end Stylesheet

namespace Store

/- All identifiers of an emission of a store are the namer's. -/
theorem named_emit
    (store : Store)
    (options : EmitOptions) :
    Stylesheet.Named (store.emit options) where
  entries c entry hMem := by
    simp only [emit_get, List.mem_filterMap,
      Account.entryIn?_eq_some_iff] at hMem
    rcases hMem with ⟨a, hAccount, -, hFate⟩
    rw [(ledger_yields hAccount hFate).identifier_eq]
    exact Namer.isNameText_identifier _ _ _
  deprecated token hMem := by
    have hToken : token ∈ store.audit options.namer := hMem
    simp only [audit, List.mem_flatMap, List.mem_filterMap,
      DeprecatedToken.ofLeaf?, Option.map_eq_some_iff] at hToken
    rcases hToken with ⟨c, -, leaf, -, deprecation, -, rfl⟩
    exact Namer.isNameText_identifier _ _ _

/-
  The stylesheet of a store is read back as the identifiers and
  values of the emission, layer by layer and in order, exactly
  when no value that is emitted holds a line feed.
-/
theorem stylesheet_reads_back_iff
    (store : Store)
    (options : EmitOptions) :
    Stylesheet.read? ((store.emit options).render ⟨.css, false⟩) =
        some (store.emit options).declarations ↔
      ∀ c, ∀ entry ∈ (store.emit options).entries.get c,
        '\n' ∉ entry.value.toList :=
  Stylesheet.read?_render_iff (store.named_emit options)

/- A primitive whose value goes on in a second line. -/
def brokenLine : Store where
  documents :=
    { primitives :=
        { root := .object [
            ("a", .object [("$value", .text "red;\n  --b: blue")])]
          uniqueKeys := by
            simp [Json.UniqueKeys, Json.UniqueKeysMembers] }
      semantic := .empty
      component := .empty }
  isObject c := by cases c <;> rfl

/- Its stylesheet declares a variable that nothing emits. -/
theorem brokenLine_misread :
    let emission := brokenLine.emit ⟨⟨"token"⟩, 10⟩
    let found := Stylesheet.read? (emission.render ⟨.css, false⟩)
    emission.declarations =
        ⟨[("--token-primitive-a", "red;\n  --b: blue")], [], []⟩
      ∧ found =
          some
            ⟨[("--token-primitive-a", "red"), ("--b", "blue")],
              [], []⟩
      ∧ found ≠ some emission.declarations := by
  intro emission found
  have hDeclared :
      emission.declarations =
        ⟨[("--token-primitive-a", "red;\n  --b: blue")], [], []⟩ := by
    decide +kernel
  have hFound :
      found =
        some
          ⟨[("--token-primitive-a", "red"), ("--b", "blue")],
            [], []⟩ := by
    change Stylesheet.read? (Stylesheet.render false emission) = _
    rw [Stylesheet.read?_render_eq]
    decide +kernel
  refine ⟨hDeclared, hFound, ?_⟩
  rw [hDeclared, hFound]
  decide

end Store

end DesignTokens
