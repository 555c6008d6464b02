import DesignTokens.Json.Document
import DesignTokens.Json.Printer

/-
  This file proves that reading a printed value gives the value
  back.

  Key definitions include:
    * `Json.NumberFree`
    * `Json.height`
    * `Json.tokens`
    * `Json.Lexes`
    * `Json.Plain`

  Key theorems include:
    * `Json.takeQuoted?_quote`
    * `Json.lexes_print`
    * `Json.run?_tokens`
    * `Json.settle_eq_self`
    * `Json.read?_print`

  A printed value is read in two passes.  The characters of a
  value are its tokens whatever follows them, unless they end in
  a number, which goes on as long as digits follow; so numbers
  are left out here.  The tokens of a value are then read back
  as the value, as long as it is not nested too deeply.
-/

------------------------------------------------------------
-- Quoted Texts
------------------------------------------------------------

namespace DesignTokens

namespace Json

/- The piece that the escape of a character is read as. -/
def pieceOf (c : Char) : Piece :=
  if shortEscape? c = none ∧ c.toNat < 0x20 then
    .unit c.toNat
  else
    .char c

/- The letter of a short escape stands for the character. -/
theorem ofShortEscape?_of_shortEscape?
    {c letter : Char}
    (hEscape : shortEscape? c = some letter) :
    letter ≠ 'u' ∧ ofShortEscape? letter = some c := by
  unfold shortEscape? at hEscape
  repeat' split at hEscape
  all_goals first
    | (cases hEscape; subst_vars; decide)
    | cases hEscape

/- The four digits of a control character give its number. -/
theorem ofDigits?_control :
    ∀ n < 0x20,
      Decimal.ofDigits? 16
          ['0', '0', hexDigit (n / 16), hexDigit (n % 16)] =
        some n := by
  decide

/- An escaped character is read as its piece. -/
theorem takePieces?_escape
    {c : Char}
    {rest after : List Char}
    {pieces : List Piece}
    (hRest : takePieces? rest = some (pieces, after)) :
    takePieces? (escape c ++ rest) =
      some (pieceOf c :: pieces, after) := by
  cases hEscape : shortEscape? c with
  | some letter =>
      rcases ofShortEscape?_of_shortEscape? hEscape with
        ⟨hLetter, hChar⟩
      simp only [escape, hEscape, List.cons_append, List.nil_append]
      rw [takePieces?]
      · simp [hChar, hRest, pieceOf, hEscape]
      · intro _ _ _ _ _ hU
        exact absurd hU hLetter
  | none =>
      by_cases hControl : c.toNat < 0x20
      · simp only [escape, hEscape, if_pos hControl,
          List.cons_append, List.nil_append]
        rw [takePieces?]
        simp [ofDigits?_control c.toNat hControl, hRest, pieceOf,
          hEscape, hControl]
      · have hQuote : c ≠ '"' := by
          rintro rfl
          exact absurd hEscape (by decide)
        have hBackslash : c ≠ '\\' := by
          rintro rfl
          exact absurd hEscape (by decide)
        simp only [escape, hEscape, if_neg hControl,
          List.cons_append, List.nil_append]
        rw [takePieces?]
        · simp [hControl, hRest, pieceOf]
        · exact hQuote
        · intro _ _ _ _ _ hSlash
          exact absurd hSlash hBackslash
        · intro _ _ hSlash
          exact absurd hSlash hBackslash

/- A unit that is no surrogate is joined as its character. -/
theorem joinPieces?_unit
    {n : Nat}
    (hSmall : n < 0x20)
    (pieces : List Piece) :
    joinPieces? (.unit n :: pieces) =
      (joinPieces? pieces).map (Char.ofNat n :: ·) := by
  have hHigh : isHighSurrogate n = false := by
    simp [isHighSurrogate]
    omega
  have hLow : isLowSurrogate n = false := by
    simp [isLowSurrogate]
    omega
  rcases pieces with _ | ⟨_ | _, _⟩ <;>
    simp [joinPieces?, hHigh, hLow]

/- The pieces of characters are joined to the characters. -/
theorem joinPieces?_pieceOf
    (cs : List Char) :
    joinPieces? (cs.map pieceOf) = some cs := by
  induction cs with
  | nil => rfl
  | cons c cs ih =>
      rw [List.map_cons]
      by_cases hUnit : shortEscape? c = none ∧ c.toNat < 0x20
      · rw [pieceOf, if_pos hUnit, joinPieces?_unit hUnit.2]
        simp [ih]
      · rw [pieceOf, if_neg hUnit, joinPieces?]
        simp [ih]

/- Characters between quotes are read as their pieces. -/
theorem takePieces?_quoted
    (cs rest : List Char) :
    takePieces? (cs.flatMap escape ++ '"' :: rest) =
      some (cs.map pieceOf, rest) := by
  induction cs with
  | nil => simp [takePieces?]
  | cons c cs ih =>
      rw [List.flatMap_cons, List.append_assoc]
      exact takePieces?_escape ih

/- A quoted text is read back, whatever follows it. -/
theorem takeQuoted?_quote
    (s : String)
    (rest : List Char) :
    takeQuoted? (s.toList.flatMap escape ++ '"' :: rest) =
      some (s, rest) := by
  simp [takeQuoted?, takePieces?_quoted, joinPieces?_pieceOf]

end Json

end DesignTokens

------------------------------------------------------------
-- Values without Numbers
------------------------------------------------------------

namespace DesignTokens

namespace Json

mutual

/- No number stands inside the value. -/
def NumberFree : Json → Prop
| number _ => False
| array items => NumberFreeItems items
| object ms => NumberFreeMembers ms
| _ => True

/- No number stands inside one of the items. -/
def NumberFreeItems : List Json → Prop
| [] => True
| j :: js => NumberFree j ∧ NumberFreeItems js

/- No number stands inside one of the members. -/
def NumberFreeMembers : List (String × Json) → Prop
| [] => True
| (_, j) :: ms => NumberFree j ∧ NumberFreeMembers ms

end

theorem numberFreeItems_iff
    (js : List Json) :
    NumberFreeItems js ↔ ∀ j ∈ js, NumberFree j := by
  induction js with
  | nil => simp [NumberFreeItems]
  | cons j js ih => simp [NumberFreeItems, ih]

theorem numberFreeMembers_iff
    (ms : List (String × Json)) :
    NumberFreeMembers ms ↔ ∀ m ∈ ms, NumberFree m.2 := by
  induction ms with
  | nil => simp [NumberFreeMembers]
  | cons m ms ih => simp [NumberFreeMembers, ih]

mutual

/- How deep arrays and objects are nested in a value. -/
def height : Json → Nat
| array items => itemsHeight items + 1
| object ms => membersHeight ms + 1
| _ => 0

/- How deep they are nested in items. -/
def itemsHeight : List Json → Nat
| [] => 0
| j :: js => max (height j) (itemsHeight js)

/- How deep they are nested in members. -/
def membersHeight : List (String × Json) → Nat
| [] => 0
| (_, j) :: ms => max (height j) (membersHeight ms)

end

theorem itemsHeight_le_iff
    (js : List Json)
    (n : Nat) :
    itemsHeight js ≤ n ↔ ∀ j ∈ js, height j ≤ n := by
  induction js with
  | nil => simp [itemsHeight]
  | cons j js ih =>
      rw [itemsHeight, Nat.max_le, ih, List.forall_mem_cons]

theorem membersHeight_le_iff
    (ms : List (String × Json))
    (n : Nat) :
    membersHeight ms ≤ n ↔ ∀ m ∈ ms, height m.2 ≤ n := by
  induction ms with
  | nil => simp [membersHeight]
  | cons m ms ih =>
      rw [membersHeight, Nat.max_le, ih, List.forall_mem_cons]

end Json

end DesignTokens

------------------------------------------------------------
-- Tokens of Values
------------------------------------------------------------

namespace DesignTokens

namespace Json

mutual

/- The tokens that a value is written with. -/
def tokens : Json → List Token
| null => [.null]
| boolean b => [.boolean b]
| number x => [.number x]
| text s => [.text s]
| array items => .openArray :: (itemTokens items ++ [.closeArray])
| object ms => .openObject :: (memberTokens ms ++ [.closeObject])

/- The tokens of items, with commas between them. -/
def itemTokens : List Json → List Token
| [] => []
| [j] => tokens j
| j :: js => tokens j ++ .comma :: itemTokens js

/- The tokens of members, with commas between them. -/
def memberTokens : List (String × Json) → List Token
| [] => []
| [(key, j)] => .text key :: .colon :: tokens j
| (key, j) :: ms =>
    .text key :: .colon :: tokens j ++ .comma :: memberTokens ms

end

/- More steps than are needed change nothing. -/
theorem Token.takeAll?_mono
    {steps steps' : Nat}
    {cs : List Char}
    {found : List Token}
    (hLess : steps ≤ steps')
    (hTake : Token.takeAll? steps cs = some found) :
    Token.takeAll? steps' cs = some found := by
  induction steps generalizing steps' cs found with
  | zero =>
      cases cs with
      | nil => simpa [Token.takeAll?] using hTake
      | cons c cs => simp [Token.takeAll?] at hTake
  | succ steps ih =>
      cases cs with
      | nil => simpa [Token.takeAll?] using hTake
      | cons c cs =>
          obtain ⟨more, rfl⟩ := Nat.exists_eq_add_of_le hLess
          rw [Nat.add_right_comm, Token.takeAll?]
          rw [Token.takeAll?] at hTake
          by_cases hSpace : Token.isSpace c
          · rw [if_pos hSpace] at hTake ⊢
            exact ih (Nat.le_add_right _ _) hTake
          · rw [if_neg hSpace] at hTake ⊢
            simp only [Option.bind_eq_bind, Option.bind_eq_some_iff]
              at hTake ⊢
            rcases hTake with ⟨first, hFirst, later, hLater, hFound⟩
            exact
              ⟨first, hFirst, later,
                ih (Nat.le_add_right _ _) hLater, hFound⟩

/- Characters are read as tokens, whatever follows them. -/
def Lexes
    (cs : List Char)
    (found : List Token) : Prop :=
  ∀ steps rest more,
    Token.takeAll? steps rest = some more →
      Token.takeAll? (steps + cs.length) (cs ++ rest) =
        some (found ++ more)

namespace Lexes

variable {cs ds : List Char}
variable {found found' : List Token}

theorem nil : Lexes [] [] :=
  fun _ _ _ hRest => hRest

theorem append
    (hFirst : Lexes cs found)
    (hSecond : Lexes ds found') :
    Lexes (cs ++ ds) (found ++ found') := by
  intro steps rest more hRest
  have hBoth := hFirst _ _ _ (hSecond _ _ _ hRest)
  rw [List.length_append, List.append_assoc, List.append_assoc,
    Nat.add_comm cs.length, ← Nat.add_assoc]
  exact hBoth

/- White space is read as no token. -/
theorem spaces
    (hSpaces : ∀ c ∈ cs, Token.isSpace c = true) :
    Lexes cs [] := by
  intro steps rest more hRest
  induction cs with
  | nil => exact hRest
  | cons c cs ih =>
      rw [List.length_cons, ← Nat.add_assoc, List.cons_append,
        Token.takeAll?, if_pos (hSpaces c List.mem_cons_self)]
      exact ih fun d hMem => hSpaces d (List.mem_cons_of_mem c hMem)

/- The characters of one token are read as the token. -/
theorem token
    {c : Char}
    {t : Token}
    (hSpace : Token.isSpace c = false)
    (hTake :
      ∀ rest, Token.take? (c :: (cs ++ rest)) = some (t, rest)) :
    Lexes (c :: cs) [t] := by
  intro steps rest more hRest
  have hEnough :=
    Token.takeAll?_mono (Nat.le_add_right steps cs.length) hRest
  rw [List.length_cons, ← Nat.add_assoc, List.cons_append,
    Token.takeAll?, if_neg (by simp [hSpace]), hTake rest]
  simp [hEnough]

theorem quote (s : String) : Lexes (quote s) [.text s] := by
  apply token rfl
  intro rest
  have hQuoted := takeQuoted?_quote s rest
  rw [List.append_assoc, List.singleton_append, Token.take?, hQuoted]
  rfl

theorem lineStart
    (layout : Layout)
    (depth : Nat) :
    Lexes (layout.lineStart depth) [] := by
  apply spaces
  intro c hMem
  cases layout with
  | compact => simp [Layout.lineStart] at hMem
  | indented =>
      rcases List.mem_cons.mp hMem with rfl | hMem
      · rfl
      · rw [List.eq_of_mem_replicate hMem]
        rfl

theorem afterKey
    (layout : Layout) :
    Lexes layout.afterKey [.colon] := by
  have hColon : Lexes [':'] [.colon] := token rfl fun _ => rfl
  cases layout with
  | compact => exact hColon
  | indented =>
      have hSpace : Lexes [' '] [] :=
        spaces (List.forall_mem_singleton.mpr rfl)
      exact hColon.append hSpace

theorem comma : Lexes [','] [.comma] :=
  token rfl fun _ => rfl

end Lexes

mutual

/- A printed value without numbers is read as its tokens. -/
theorem lexes_print
    (layout : Layout)
    (depth : Nat) :
    (j : Json) →
      j.NumberFree → Lexes (print layout depth j) j.tokens
| null, _ => Lexes.token rfl fun _ => rfl
| boolean true, _ => Lexes.token rfl fun _ => rfl
| boolean false, _ => Lexes.token rfl fun _ => rfl
| number _, hFree => absurd hFree (by simp [NumberFree])
| text s, _ => Lexes.quote s
| array [], _ => by
    have hOpen : Lexes ['['] [.openArray] := Lexes.token rfl fun _ => rfl
    exact hOpen.append (Lexes.token rfl fun _ => rfl)
| array (j :: js), hFree => by
    have hOpen : Lexes ['['] [.openArray] := Lexes.token rfl fun _ => rfl
    have hClose : Lexes [']'] [.closeArray] :=
      Lexes.token rfl fun _ => rfl
    have hItems :=
      lexes_printItems layout (depth + 1) (j :: js) hFree
    have hEnd := (Lexes.lineStart layout depth).append hClose
    have hAll := hOpen.append (hItems.append hEnd)
    simpa [print, tokens] using hAll
| object [], _ => by
    have hOpen : Lexes ['\x7b'] [.openObject] :=
      Lexes.token rfl fun _ => rfl
    exact hOpen.append (Lexes.token rfl fun _ => rfl)
| object (m :: ms), hFree => by
    have hOpen : Lexes ['\x7b'] [.openObject] :=
      Lexes.token rfl fun _ => rfl
    have hClose : Lexes ['\x7d'] [.closeObject] :=
      Lexes.token rfl fun _ => rfl
    have hMembers :=
      lexes_printMembers layout (depth + 1) (m :: ms) hFree
    have hEnd := (Lexes.lineStart layout depth).append hClose
    have hAll := hOpen.append (hMembers.append hEnd)
    simpa [print, tokens] using hAll

theorem lexes_printItems
    (layout : Layout)
    (depth : Nat) :
    (js : List Json) →
      NumberFreeItems js →
        Lexes (printItems layout depth js) (itemTokens js)
| [], _ => Lexes.nil
| [j], hFree =>
    (Lexes.lineStart layout depth).append
      (lexes_print layout depth j hFree.1)
| j :: k :: js, hFree => by
    have hFirst :=
      (Lexes.lineStart layout depth).append
        (lexes_print layout depth j hFree.1)
    have hRest := lexes_printItems layout depth (k :: js) hFree.2
    have hAll := hFirst.append (Lexes.comma.append hRest)
    simpa [printItems, itemTokens] using hAll

theorem lexes_printMembers
    (layout : Layout)
    (depth : Nat) :
    (ms : List (String × Json)) →
      NumberFreeMembers ms →
        Lexes (printMembers layout depth ms) (memberTokens ms)
| [], _ => Lexes.nil
| [(key, j)], hFree => by
    have hKey :=
      ((Lexes.lineStart layout depth).append (Lexes.quote key)).append
        (Lexes.afterKey layout)
    have hAll := hKey.append (lexes_print layout depth j hFree.1)
    simpa [printMembers, memberTokens] using hAll
| (key, j) :: m :: ms, hFree => by
    have hKey :=
      ((Lexes.lineStart layout depth).append (Lexes.quote key)).append
        (Lexes.afterKey layout)
    have hFirst := hKey.append (lexes_print layout depth j hFree.1)
    have hRest := lexes_printMembers layout depth (m :: ms) hFree.2
    have hAll := hFirst.append (Lexes.comma.append hRest)
    simpa [printMembers, memberTokens] using hAll

end

end Json

end DesignTokens

------------------------------------------------------------
-- Reading Tokens
------------------------------------------------------------

namespace DesignTokens

namespace Json

/- The first item is read like every other value. -/
theorem run?_firstItem
    (outer : List Frame)
    (j : Json)
    (js : List Json)
    (rest : List Token) :
    Stage.run? (.firstItem outer) (itemTokens (j :: js) ++ rest) =
      Stage.run? (.value (.array [] :: outer))
        (itemTokens (j :: js) ++ rest) := by
  cases js <;> cases j <;> rfl

/- The first key is read like every other key. -/
theorem run?_firstKey
    (outer : List Frame)
    (m : String × Json)
    (ms : List (String × Json))
    (rest : List Token) :
    Stage.run? (.firstKey outer) (memberTokens (m :: ms) ++ rest) =
      Stage.run? (.nextKey outer [])
        (memberTokens (m :: ms) ++ rest) := by
  cases ms <;> rfl

mutual

/- The tokens of a value are read as the value. -/
theorem run?_tokens :
    (j : Json) →
      ∀ outer rest,
        outer.length + j.height ≤ maxNesting →
          Stage.run? (.value outer) (j.tokens ++ rest) =
            Stage.run? (.complete outer j) rest
| null, _, _, _ => rfl
| boolean _, _, _, _ => rfl
| number _, _, _, _ => rfl
| text _, _, _, _ => rfl
| array items, outer, rest, hHeight => by
    rw [height] at hHeight
    have hOpen : outer.length < maxNesting := by omega
    simp only [tokens, List.cons_append, Stage.run?, Stage.step?,
      Stage.startValue?, if_pos hOpen, List.append_assoc]
    cases items with
    | nil => rfl
    | cons j js =>
        have hItems :=
          run?_itemTokens (j :: js) outer [] rest (by simp) (by omega)
        exact (run?_firstItem ..).trans hItems
| object ms, outer, rest, hHeight => by
    rw [height] at hHeight
    have hOpen : outer.length < maxNesting := by omega
    simp only [tokens, List.cons_append, Stage.run?, Stage.step?,
      Stage.startValue?, if_pos hOpen, List.append_assoc]
    cases ms with
    | nil => rfl
    | cons m ms =>
        have hMembers :=
          run?_memberTokens (m :: ms) outer [] rest (by simp) (by omega)
        exact (run?_firstKey ..).trans hMembers

/- The items of an open array are read after those before. -/
theorem run?_itemTokens :
    (js : List Json) →
      ∀ outer before rest,
        js ≠ [] →
          outer.length + (itemsHeight js + 1) ≤ maxNesting →
            Stage.run? (.value (.array before :: outer))
                (itemTokens js ++ ([.closeArray] ++ rest)) =
              Stage.run? (.complete outer (.array (before.reverse ++ js)))
                rest
| [], _, _, _, hSome, _ => absurd rfl hSome
| [j], outer, before, rest, _, hHeight => by
    have hFirst :
        (Frame.array before :: outer).length + j.height ≤ maxNesting := by
      rw [itemsHeight, itemsHeight] at hHeight
      rw [List.length_cons]
      omega
    rw [itemTokens, run?_tokens j _ _ hFirst]
    simp [Stage.run?, Stage.step?, Stage.afterValue?]
| j :: k :: js, outer, before, rest, _, hHeight => by
    rw [itemsHeight] at hHeight
    have hFirst :
        (Frame.array before :: outer).length + j.height ≤ maxNesting := by
      rw [List.length_cons]
      omega
    have hRest :=
      run?_itemTokens (k :: js) outer (j :: before) rest (by simp)
        (by omega)
    simp only [itemTokens, List.cons_append, List.append_assoc]
    rw [run?_tokens j _ _ hFirst, Stage.run?]
    simpa [Stage.step?, Stage.afterValue?] using hRest

/- The members of an open object are read after those before. -/
theorem run?_memberTokens :
    (ms : List (String × Json)) →
      ∀ outer before rest,
        ms ≠ [] →
          outer.length + (membersHeight ms + 1) ≤ maxNesting →
            Stage.run? (.nextKey outer before)
                (memberTokens ms ++ ([.closeObject] ++ rest)) =
              Stage.run?
                (.complete outer (.object (before.reverse ++ ms))) rest
| [], _, _, _, hSome, _ => absurd rfl hSome
| [(key, j)], outer, before, rest, _, hHeight => by
    have hFirst :
        (Frame.object before key :: outer).length + j.height ≤
          maxNesting := by
      rw [membersHeight, membersHeight] at hHeight
      rw [List.length_cons]
      omega
    simp only [memberTokens, List.cons_append, Stage.run?, Stage.step?]
    rw [run?_tokens j _ _ hFirst]
    simp [Stage.run?, Stage.step?, Stage.afterValue?]
| (key, j) :: m :: ms, outer, before, rest, _, hHeight => by
    rw [membersHeight] at hHeight
    have hFirst :
        (Frame.object before key :: outer).length + j.height ≤
          maxNesting := by
      rw [List.length_cons]
      omega
    have hRest :=
      run?_memberTokens (m :: ms) outer ((key, j) :: before) rest
        (by simp) (by omega)
    simp only [memberTokens, List.cons_append, List.append_assoc,
      Stage.run?, Stage.step?]
    rw [run?_tokens j _ _ hFirst, Stage.run?]
    simpa [Stage.step?, Stage.afterValue?] using hRest

end

end Json

end DesignTokens

------------------------------------------------------------
-- Settled Values
------------------------------------------------------------

namespace DesignTokens

namespace Json

/- A key that does not occur again is put in front as it is. -/
theorem putFirst_eq_cons
    {key : String}
    {value : Json}
    {later : List (String × Json)}
    (hNew : key ∉ later.map Prod.fst) :
    putFirst key value later = (key, value) :: later := by
  have hLookup : later.lookup key = none := by
    rw [Option.eq_none_iff_forall_ne_some]
    intro found hFound
    exact hNew (List.mem_map.mpr ⟨_, mem_of_lookup hFound, rfl⟩)
  have hFilter : later.filter (fun m => m.1 ≠ key) = later := by
    rw [List.filter_eq_self]
    intro m hMem
    rw [decide_eq_true_iff]
    rintro rfl
    exact hNew (List.mem_map.mpr ⟨m, hMem, rfl⟩)
  rw [putFirst, hLookup, hFilter, Option.getD_none]

mutual

/- A value that repeats no key is settled. -/
theorem settle_eq_self :
    (j : Json) → j.UniqueKeys → j.settle = j
| null, _ => rfl
| boolean _, _ => rfl
| number _, _ => rfl
| text _, _ => rfl
| array items, hUnique => by
    rw [settle, settleItems_eq_self items hUnique]
| object ms, hUnique => by
    rw [settle, settleMembers_eq_self ms hUnique.1 hUnique.2]

theorem settleItems_eq_self :
    (js : List Json) → UniqueKeysItems js → settleItems js = js
| [], _ => rfl
| j :: js, hUnique => by
    rw [settleItems, settle_eq_self j hUnique.1,
      settleItems_eq_self js hUnique.2]

theorem settleMembers_eq_self :
    (ms : List (String × Json)) →
      (ms.map Prod.fst).Nodup →
        UniqueKeysMembers ms → settleMembers ms = ms
| [], _, _ => rfl
| (key, j) :: ms, hNodup, hUnique => by
    rw [List.map_cons, List.nodup_cons] at hNodup
    rw [settleMembers, settle_eq_self j hUnique.1,
      settleMembers_eq_self ms hNodup.2 hUnique.2,
      putFirst_eq_cons hNodup.1]

end

end Json

end DesignTokens

------------------------------------------------------------
-- Reading Printed Values Back
------------------------------------------------------------

namespace DesignTokens

namespace Json

/-
  A value that reads back as it is printed: it holds no number,
  is nested no deeper than a given depth and repeats no key.
-/
structure Plain
    (depth : Nat)
    (j : Json) : Prop where
  numberFree : j.NumberFree
  height_le : j.height ≤ depth
  uniqueKeys : j.UniqueKeys

namespace Plain

variable {depth : Nat}

theorem null : Plain depth .null :=
  ⟨trivial, Nat.zero_le depth, trivial⟩

theorem text (s : String) : Plain depth (.text s) :=
  ⟨trivial, Nat.zero_le depth, trivial⟩

theorem array
    {items : List Json}
    (hItems : ∀ j ∈ items, Plain depth j) :
    Plain (depth + 1) (.array items) where
  numberFree :=
    (numberFreeItems_iff items).mpr fun j hMem =>
      (hItems j hMem).numberFree
  height_le :=
    Nat.succ_le_succ
      ((itemsHeight_le_iff items depth).mpr fun j hMem =>
        (hItems j hMem).height_le)
  uniqueKeys :=
    (uniqueKeysItems_iff items).mpr fun j hMem =>
      (hItems j hMem).uniqueKeys

theorem object
    {ms : List (String × Json)}
    (hKeys : (ms.map Prod.fst).Nodup)
    (hMembers : ∀ m ∈ ms, Plain depth m.2) :
    Plain (depth + 1) (.object ms) where
  numberFree :=
    (numberFreeMembers_iff ms).mpr fun m hMem =>
      (hMembers m hMem).numberFree
  height_le :=
    Nat.succ_le_succ
      ((membersHeight_le_iff ms depth).mpr fun m hMem =>
        (hMembers m hMem).height_le)
  uniqueKeys :=
    ⟨hKeys, (uniqueKeysMembers_iff ms).mpr fun m hMem =>
      (hMembers m hMem).uniqueKeys⟩

theorem mono
    {j : Json}
    {depth' : Nat}
    (hPlain : Plain depth j)
    (hLess : depth ≤ depth') :
    Plain depth' j :=
  ⟨hPlain.numberFree, Nat.le_trans hPlain.height_le hLess,
    hPlain.uniqueKeys⟩

end Plain

/- Reading gives a printed value back, with white space after it. -/
theorem read?_print
    (layout : Layout)
    {j : Json}
    {space : List Char}
    (hPlain : j.Plain maxNesting)
    (hSpace : ∀ c ∈ space, Token.isSpace c = true) :
    read? (String.ofList (print layout 0 j ++ space)) = some j := by
  have hPrinted := lexes_print layout 0 j hPlain.numberFree
  have hLexed := hPrinted.append (Lexes.spaces hSpace) 0 [] [] rfl
  have hRun := run?_tokens j [] [] (by simpa using hPlain.height_le)
  simp only [List.append_nil, Nat.zero_add] at hLexed hRun
  rw [read?, readChars?, String.toList_ofList, Token.ofChars?, hLexed]
  exact hRun

end Json

/- The document of a text that repeats no key is the value read. -/
theorem Document.ofJsonText?_eq_some
    {text : String}
    {j : Json}
    (hRead : Json.read? text = some j)
    (hUnique : j.UniqueKeys) :
    ofJsonText? text = some ⟨j, hUnique⟩ := by
  rw [ofJsonText?, hRead, Option.map_some, settled]
  simp only [Json.settle_eq_self j hUnique]

end DesignTokens
