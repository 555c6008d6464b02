import DesignTokens.Namer

/-
  This file proves that identifiers tell the layers apart, and
  which characters stand in them.

  Key definitions include:
    * `IsNameText`

  Key theorems include:
    * `Namer.identifier_eq`
    * `Namer.layerPrefix_append_eq_iff`
    * `Namer.identifier_eq_identifier_iff`
    * `Namer.collection_eq_of_identifier_eq`
    * `Namer.exists_identifier_eq`
    * `Namer.isNameText_identifier`

  All identifiers of a namer begin alike.  What follows is the
  word of a layer, and no two of these words begin alike.
-/

------------------------------------------------------------
-- Layers of Identifiers
------------------------------------------------------------

namespace DesignTokens

namespace Namer

/- What all identifiers of a namer begin with. -/
def lead (namer : Namer) : String :=
  if namer.root = "" then
    "--"
  else
    "--" ++ normalize namer.root ++ "-"

/- The prefix of a layer is the lead and the layer's word. -/
theorem layerPrefix_eq
    (namer : Namer)
    (c : Collection) :
    namer.layerPrefix c = namer.lead ++ (c.slug ++ "-") := by
  unfold layerPrefix lead
  split <;> simp only [String.append_assoc]

/- An identifier is the lead, the layer's word and the path. -/
theorem identifier_eq
    (namer : Namer)
    (path : List String)
    (c : Collection) :
    namer.identifier path c =
      namer.lead ++ (c.slug ++ ("-" ++ normalizePath path)) := by
  rw [identifier, layerPrefix_eq]
  simp only [String.append_assoc]

/- What begins with the prefix of a layer begins with no other. -/
theorem layerPrefix_append_eq_iff
    {namer : Namer}
    {c d : Collection}
    {rest rest' : String} :
    namer.layerPrefix c ++ rest = namer.layerPrefix d ++ rest' ↔
      c = d ∧ rest = rest' := by
  constructor
  · intro hSame
    have hLayer : c = d := by
      simp only [layerPrefix_eq, String.append_assoc,
        String.append_right_inj] at hSame
      have hHead := congrArg (fun s => s.toList.head?) hSame
      cases c <;> cases d <;>
        first
          | rfl
          | simp [Collection.slug] at hHead
    subst hLayer
    exact ⟨rfl, (String.append_right_inj _).mp hSame⟩
  · rintro ⟨rfl, rfl⟩
    rfl

/- Identifiers are equal for one layer and one normalized path. -/
theorem identifier_eq_identifier_iff
    {namer : Namer}
    {p q : List String}
    {c d : Collection} :
    namer.identifier p c = namer.identifier q d ↔
      c = d ∧ normalizePath p = normalizePath q :=
  layerPrefix_append_eq_iff

/- Tokens of different layers never share an identifier. -/
theorem collection_eq_of_identifier_eq
    {namer : Namer}
    {p q : List String}
    {c d : Collection}
    (hSame : namer.identifier p c = namer.identifier q d) :
    c = d :=
  (identifier_eq_identifier_iff.mp hSame).1

end Namer

end DesignTokens

------------------------------------------------------------
-- Characters of Identifiers
------------------------------------------------------------

namespace DesignTokens

/- A text is made of the characters of identifiers. -/
def IsNameText (s : String) : Prop :=
  ∀ c ∈ s.toList, isNameChar c = true

instance (s : String) : Decidable (IsNameText s) :=
  List.decidableBAll (isNameChar · = true) s.toList

theorem IsNameText.append
    {s t : String}
    (hFirst : IsNameText s)
    (hSecond : IsNameText t) :
    IsNameText (s ++ t) := by
  intro c hMem
  rw [String.toList_append, List.mem_append] at hMem
  exact hMem.elim (hFirst c) (hSecond c)

/- A small letter for a capital one may stand in an identifier. -/
theorem isNameChar_toLower
    {c : Char}
    (hCapital : 'A' ≤ c ∧ c ≤ 'Z') :
    isNameChar c.toLower = true := by
  have hAll :
      ∀ n < 26, isNameChar (Char.ofNat ('A'.toNat + n)).toLower = true := by
    decide
  have hFirst : 'A'.toNat ≤ c.toNat := hCapital.1
  have hLast : c.toNat ≤ 'Z'.toNat := hCapital.2
  have hSmall : c.toNat - 'A'.toNat < 26 := by
    have hCount : 'Z'.toNat = 'A'.toNat + 25 := rfl
    omega
  have hChar := hAll _ hSmall
  rwa [Nat.add_sub_of_le hFirst, Char.ofNat_toNat] at hChar

/- What a character is normalized to may stand in an identifier. -/
theorem isNameChar_of_mem_normalizeChar
    {c d : Char}
    (hMem : d ∈ normalizeChar c) :
    isNameChar d = true := by
  unfold normalizeChar at hMem
  split at hMem
  · next hName =>
      rw [List.mem_singleton.mp hMem]
      exact hName
  · split at hMem
    · next hCapital =>
        rw [List.mem_singleton.mp hMem]
        exact isNameChar_toLower (by simpa using hCapital)
    · split at hMem
      · rcases List.mem_cons.mp hMem with rfl | hMem
        · rfl
        · rw [List.mem_singleton.mp hMem]
          rfl
      · split at hMem
        · rw [List.mem_singleton.mp hMem]
          rfl
        · rw [List.mem_singleton.mp hMem]
          rfl

/- A normalized text is made of these characters. -/
theorem isNameText_normalize
    (s : String) :
    IsNameText (normalize s) := by
  intro c hMem
  rw [normalize, String.toList_ofList, normalizeChars,
    List.mem_flatMap] at hMem
  rcases hMem with ⟨d, -, hMem⟩
  exact isNameChar_of_mem_normalizeChar hMem

namespace Namer

/- An identifier is two hyphens and a text of these characters. -/
theorem exists_identifier_eq
    (namer : Namer)
    (path : List String)
    (c : Collection) :
    ∃ rest,
      IsNameText rest ∧ namer.identifier path c = "--" ++ rest := by
  have hPath : IsNameText (normalizePath path) :=
    isNameText_normalize _
  have hSlug : IsNameText c.slug := by
    cases c <;> decide
  have hHyphen : IsNameText "-" := by decide
  have hLayer : IsNameText (c.slug ++ ("-" ++ normalizePath path)) :=
    hSlug.append (hHyphen.append hPath)
  rw [identifier_eq, lead]
  split
  · exact ⟨_, hLayer, rfl⟩
  · refine
      ⟨normalize namer.root ++ "-"
          ++ (c.slug ++ ("-" ++ normalizePath path)), ?_, ?_⟩
    · exact ((isNameText_normalize _).append hHyphen).append hLayer
    · simp only [String.append_assoc]

/- So it is made of them itself, whatever root and path it has. -/
theorem isNameText_identifier
    (namer : Namer)
    (path : List String)
    (c : Collection) :
    IsNameText (namer.identifier path c) := by
  have hHyphens : IsNameText "--" := by decide
  rcases namer.exists_identifier_eq path c with ⟨rest, hRest, hEq⟩
  rw [hEq]
  exact hHyphens.append hRest

end Namer

end DesignTokens
