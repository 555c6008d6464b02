import DesignTokens.Proofs.Naming
import Mathlib.Data.List.Forall2

/-
  This file tells which tokens share an identifier.

  Key definitions include:
    * `Text.LowersChar`
    * `Text.Lowers`
    * `Normalizes`

  Key theorems include:
    * `normalizes_iff`
    * `normalizePath_eq_join`
    * `normalize_of_isNameText`
    * `Namer.identifiers_collide_iff`

  A path is written in small letters as a whole, where the form
  of a letter may depend on its neighbours and two letters have
  a form of other characters than one.  None of this is left
  once the characters are restricted to those of identifiers, so
  that a path is normalized key by key.
-/

------------------------------------------------------------
-- Small Letters
------------------------------------------------------------

namespace DesignTokens

namespace Text

/-
  The forms that a character may have in small letters.  Outside
  ASCII a form is left open where it depends on the neighbours,
  as that of the capital sigma does: it is one character outside
  ASCII, except for the capital I with a dot and the kelvin sign.
-/
inductive LowersChar : Char → List Char → Prop
| capital {c : Char} :
    'A' ≤ c →
      c ≤ 'Z' →
        LowersChar c [c.toLower]
| ascii {c : Char} :
    c.toNat < 128 →
      ¬ ('A' ≤ c ∧ c ≤ 'Z') →
        LowersChar c [c]
| dottedCapital : LowersChar '\u0130' ['i', '\u0307']
| kelvin : LowersChar '\u212A' ['k']
| foreign {c d : Char} :
    128 ≤ c.toNat →
      c ≠ '\u0130' →
        c ≠ '\u212A' →
          128 ≤ d.toNat →
            LowersChar c [d]

/- A text written in small letters, character by character. -/
inductive Lowers : List Char → List Char → Prop
| nil : Lowers [] []
| cons {c : Char} {form cs lowered : List Char} :
    LowersChar c form →
      Lowers cs lowered →
        Lowers (c :: cs) (form ++ lowered)

/- Every character has a form in small letters. -/
theorem exists_lowersChar (c : Char) :
    ∃ form, LowersChar c form := by
  by_cases hAscii : c.toNat < 128
  · by_cases hCapital : 'A' ≤ c ∧ c ≤ 'Z'
    · exact ⟨_, LowersChar.capital hCapital.1 hCapital.2⟩
    · exact ⟨_, LowersChar.ascii hAscii hCapital⟩
  · by_cases hDotted : c = '\u0130'
    · subst hDotted
      exact ⟨_, LowersChar.dottedCapital⟩
    · by_cases hKelvin : c = '\u212A'
      · subst hKelvin
        exact ⟨_, LowersChar.kelvin⟩
      · have hForeign : 128 ≤ c.toNat := Nat.le_of_not_lt hAscii
        exact
          ⟨_, LowersChar.foreign hForeign hDotted hKelvin hForeign⟩

/- So has every text. -/
theorem exists_lowers (cs : List Char) :
    ∃ lowered, Lowers cs lowered := by
  induction cs with
  | nil => exact ⟨[], Lowers.nil⟩
  | cons c cs ih =>
      rcases exists_lowersChar c with ⟨form, hForm⟩
      rcases ih with ⟨lowered, hLowers⟩
      exact ⟨form ++ lowered, Lowers.cons hForm hLowers⟩

end Text

end DesignTokens

------------------------------------------------------------
-- Restricted Characters
------------------------------------------------------------

namespace DesignTokens

/- A hyphen stands for a character that identifiers do not have. -/
def restrictChar (c : Char) : Char :=
  if isNameChar c then c else '-'

/-
  A text is normalized to another: it is written in small
  letters and then restricted to the characters of identifiers.
-/
def Normalizes (s t : String) : Prop :=
  ∃ lowered,
    Text.Lowers s.toList lowered ∧
      t.toList = lowered.map restrictChar

/- The characters of identifiers are small ASCII characters. -/
theorem toNat_lt_of_isNameChar
    {c : Char}
    (hName : isNameChar c = true) :
    c.toNat < 128 := by
  have hZ : 'z'.toNat = 122 := rfl
  have hNine : '9'.toNat = 57 := rfl
  simp only [isNameChar, Bool.or_eq_true, Bool.and_eq_true,
    decide_eq_true_eq] at hName
  rcases hName with (⟨-, hLast⟩ | ⟨-, hLast⟩) | rfl
  · have hLast' : c.toNat ≤ 'z'.toNat := hLast
    omega
  · have hLast' : c.toNat ≤ '9'.toNat := hLast
    omega
  · decide

/- No capital letter is among them. -/
theorem not_capital_of_isNameChar
    {c : Char}
    (hName : isNameChar c = true) :
    ¬ ('A' ≤ c ∧ c ≤ 'Z') := by
  rintro ⟨hFirst, hLast⟩
  have hFirst' : 'A'.toNat ≤ c.toNat := hFirst
  have hLast' : c.toNat ≤ 'Z'.toNat := hLast
  have hA : 'A'.toNat = 65 := rfl
  have hZ : 'Z'.toNat = 90 := rfl
  simp only [isNameChar, Bool.or_eq_true, Bool.and_eq_true,
    decide_eq_true_eq] at hName
  rcases hName with (⟨hLetter, -⟩ | ⟨-, hDigit⟩) | rfl
  · have hLetter' : 'a'.toNat ≤ c.toNat := hLetter
    have hSmallA : 'a'.toNat = 97 := rfl
    omega
  · have hDigit' : c.toNat ≤ '9'.toNat := hDigit
    have hNine : '9'.toNat = 57 := rfl
    omega
  · revert hFirst'
    decide

/- Characters outside ASCII are restricted to a hyphen. -/
theorem restrictChar_of_le_toNat
    {c : Char}
    (hForeign : 128 ≤ c.toNat) :
    restrictChar c = '-' := by
  rw [restrictChar, if_neg]
  intro hName
  exact absurd (toNat_lt_of_isNameChar hName) (Nat.not_lt.mpr hForeign)

/- Most characters are only restricted when they are normalized. -/
theorem normalizeChar_eq_restrictChar
    {c : Char}
    (hCapital : ¬ ('A' ≤ c ∧ c ≤ 'Z'))
    (hDotted : c ≠ '\u0130')
    (hKelvin : c ≠ '\u212A') :
    normalizeChar c = [restrictChar c] := by
  by_cases hName : isNameChar c = true
  · rw [normalizeChar, restrictChar, if_pos hName, if_pos hName]
  · rw [normalizeChar, restrictChar, if_neg hName, if_neg hName,
      if_neg (by simpa using hCapital), if_neg hDotted,
      if_neg hKelvin]

/-
  Whatever form a character has, what is left of it is what the
  character is normalized to.
-/
theorem map_restrictChar_of_lowersChar
    {c : Char}
    {form : List Char}
    (hForm : Text.LowersChar c form) :
    form.map restrictChar = normalizeChar c := by
  cases hForm with
  | capital hFirst hLast =>
      have hNot : ¬ isNameChar c = true :=
        fun hName => not_capital_of_isNameChar hName ⟨hFirst, hLast⟩
      rw [normalizeChar, if_neg hNot, if_pos (by simp [hFirst, hLast]),
        List.map_singleton, restrictChar,
        if_pos (isNameChar_toLower ⟨hFirst, hLast⟩)]
  | ascii hAscii hCapital =>
      have hDotted : c ≠ '\u0130' := by
        rintro rfl
        revert hAscii
        decide
      have hKelvin : c ≠ '\u212A' := by
        rintro rfl
        revert hAscii
        decide
      rw [normalizeChar_eq_restrictChar hCapital hDotted hKelvin,
        List.map_singleton]
  | dottedCapital => decide
  | kelvin => decide
  | foreign hForeign hDotted hKelvin hForm =>
      have hCapital : ¬ ('A' ≤ c ∧ c ≤ 'Z') := by
        rintro ⟨-, hLast⟩
        have hLast' : c.toNat ≤ 'Z'.toNat := hLast
        have hZ : 'Z'.toNat = 90 := rfl
        omega
      rw [normalizeChar_eq_restrictChar hCapital hDotted hKelvin,
        List.map_singleton, restrictChar_of_le_toNat hForm,
        restrictChar_of_le_toNat hForeign]

/- The same holds of a text, character by character. -/
theorem map_restrictChar_of_lowers
    {cs lowered : List Char}
    (hLowers : Text.Lowers cs lowered) :
    lowered.map restrictChar = normalizeChars cs := by
  induction hLowers with
  | nil => rfl
  | cons hForm _ ih =>
      rw [List.map_append, map_restrictChar_of_lowersChar hForm, ih,
        normalizeChars, normalizeChars, List.flatMap_cons]

/- A text is normalized to one text, whatever forms it takes. -/
theorem normalizes_iff
    (s t : String) :
    Normalizes s t ↔ t = normalize s := by
  constructor
  · rintro ⟨lowered, hLowers, hText⟩
    rw [normalize, ← map_restrictChar_of_lowers hLowers, ← hText,
      String.ofList_toList]
  · rintro rfl
    rcases Text.exists_lowers s.toList with ⟨lowered, hLowers⟩
    refine ⟨lowered, hLowers, ?_⟩
    rw [normalize, String.toList_ofList,
      map_restrictChar_of_lowers hLowers]

/- So is each key of a path to one key. -/
theorem forall₂_normalizes_iff (path keys : List String) :
    List.Forall₂ Normalizes path keys ↔ keys = path.map normalize := by
  constructor
  · intro hKeys
    have hSame : List.Forall₂ (· = ·) (path.map normalize) keys := by
      apply List.forall₂_map_left_iff.mpr
      exact hKeys.imp fun s t hEq => ((normalizes_iff s t).mp hEq).symm
    rw [List.forall₂_eq_eq_eq] at hSame
    exact hSame.symm
  · rintro rfl
    apply List.forall₂_map_right_iff.mpr
    exact List.forall₂_same.mpr fun s _ => (normalizes_iff s _).mpr rfl

end DesignTokens

------------------------------------------------------------
-- Normalized Paths
------------------------------------------------------------

namespace DesignTokens

/- Characters of identifiers are normalized to themselves. -/
theorem normalizeChars_of_isNameChar
    {cs : List Char}
    (hName : ∀ c ∈ cs, isNameChar c = true) :
    normalizeChars cs = cs := by
  induction cs with
  | nil => rfl
  | cons c cs ih =>
      rw [List.forall_mem_cons] at hName
      rw [normalizeChars, List.flatMap_cons, ← normalizeChars,
        ih hName.2, normalizeChar, if_pos hName.1]
      rfl

theorem normalize_of_isNameText
    {s : String}
    (hName : IsNameText s) :
    normalize s = s := by
  rw [normalize, normalizeChars_of_isNameChar hName,
    String.ofList_toList]

/- Pieces between hyphens are normalized one by one. -/
theorem normalizeChars_joinChars (pieces : List (List Char)) :
    normalizeChars (Text.joinChars '-' pieces) =
      Text.joinChars '-' (pieces.map normalizeChars) := by
  induction pieces with
  | nil => rfl
  | cons piece pieces ih =>
      cases pieces with
      | nil => rfl
      | cons next pieces =>
          have hHyphen : normalizeChar '-' = ['-'] := rfl
          rw [Text.joinChars_cons_cons, List.map_cons, List.map_cons,
            Text.joinChars_cons_cons, ← List.map_cons, ← ih]
          simp [normalizeChars, hHyphen]

/- A path is normalized key by key. -/
theorem normalizePath_eq_join (path : List String) :
    normalizePath path = Text.join '-' (path.map normalize) := by
  have hKeys :
      (path.map normalize).map String.toList =
        (path.map String.toList).map normalizeChars := by
    simp [normalize, Function.comp_def]
  rw [normalizePath, normalize, Text.join, String.toList_ofList,
    normalizeChars_joinChars, Text.join, hKeys]

end DesignTokens

------------------------------------------------------------
-- Shared Identifiers
------------------------------------------------------------

namespace DesignTokens

namespace Namer

/-
  Two tokens share an identifier exactly when they are of one
  layer and their normalized keys, with hyphens between them,
  make one text.  The text is made of the characters of
  identifiers and stays as it is when it is normalized again.
-/
theorem identifiers_collide_iff
    (namer : Namer)
    (p q : List String)
    (c d : Collection) :
    (∃ rest,
        IsNameText rest ∧ namer.identifier p c = "--" ++ rest)
      ∧ (∃ rest, namer.identifier p c = namer.layerPrefix c ++ rest)
      ∧ (∀ t, Normalizes (Text.join '-' p) t ↔ t = normalizePath p)
      ∧ (∀ keys,
          List.Forall₂ Normalizes p keys ↔ keys = p.map normalize)
      ∧ normalizePath p = Text.join '-' (p.map normalize)
      ∧ normalize (normalizePath p) = normalizePath p
      ∧ (namer.identifier p c = namer.identifier q d ↔
          c = d
            ∧ Text.join '-' (p.map normalize) =
                Text.join '-' (q.map normalize))
      ∧ (c ≠ d → namer.identifier p c ≠ namer.identifier q d) := by
  refine ⟨namer.exists_identifier_eq p c, ⟨_, rfl⟩,
    normalizes_iff (Text.join '-' p), forall₂_normalizes_iff p,
    normalizePath_eq_join p,
    normalize_of_isNameText (isNameText_normalize _), ?shared, ?layers⟩
  case shared =>
    rw [identifier_eq_identifier_iff, normalizePath_eq_join,
      normalizePath_eq_join]
  case layers =>
    intro hLayers hSame
    exact hLayers (collection_eq_of_identifier_eq hSame)

end Namer

end DesignTokens
