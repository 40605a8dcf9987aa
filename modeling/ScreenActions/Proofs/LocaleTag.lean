import Mathlib
import ScreenActions.Locale
import ScreenActions.Proofs.SplitPieces
import ScreenActions.Proofs.TextParts

/-!
Locales read back from their tags. A tag keeps the pieces that a locale was read from, the empty
ones apart, and so it gives the locale again unless it leaves the variant out or ends in a blank.
-/

namespace ScreenActions

open Text

namespace Locale

/-- What sets the parts of a tag off. -/
def isSeparator (c : Char) : Bool := c == '_' || c == '-'

/-- The locale of a tag that is cut at its separators. -/
def ofPieces (language : List Char) (parts : List (List Char)) : Locale :=
  let rest := (parts.drop 1).filter (!·.isEmpty)
  { language := lower (String.ofList language)
    country := match parts with
      | [] => none
      | country :: _ => if country.isEmpty then none else some (upper (String.ofList country))
    variant := if rest.isEmpty then none else some (join "_" (rest.map String.ofList)) }

theorem ofTag?_of_splitAll {tag : String} {language : List Char} {parts : List (List Char)}
    (h : splitAll isSeparator (trim tag.toList) = language :: parts) :
    ofTag? tag = if language.isEmpty || !language.all isAsciiLetter then none
      else some (ofPieces language parts) := by
  unfold isSeparator at h
  simp only [ofTag?, h]
  congr 2
  cases parts with
  | nil => rfl
  | cons country rest =>
    cases hcountry : country.isEmpty <;> cases hrest : (rest.filter (!·.isEmpty)).isEmpty <;>
      simp [ofPieces, ofLanguage, withCountry, withVariant, hcountry, hrest]

theorem ofTag?_eq_some_iff {tag : String} {l : Locale} :
    ofTag? tag = some l ↔ ∃ language parts,
      splitAll isSeparator (trim tag.toList) = language :: parts ∧ language ≠ [] ∧
        language.all isAsciiLetter = true ∧ ofPieces language parts = l := by
  obtain ⟨language, parts, hpieces⟩ : ∃ language parts,
      splitAll isSeparator (trim tag.toList) = language :: parts := by
    rw [splitAll_eq_splitOnP]
    exact List.exists_cons_of_ne_nil (List.splitOnP_ne_nil _ _)
  rw [ofTag?_of_splitAll hpieces, hpieces]
  simp [and_assoc]

/-- The parts that a tag keeps after the language. -/
def keptParts : List (List Char) → List (List Char)
  | [] => []
  | country :: rest =>
      if country.isEmpty then [] else country.map Char.toUpper :: rest.filter (!·.isEmpty)

theorem toList_tag_ofPieces (language : List Char) (parts : List (List Char)) :
    (ofPieces language parts).tag.toList =
      ['_'].intercalate (language.map Char.toLower :: keptParts parts) := by
  cases parts with
  | nil => simp [ofPieces, keptParts, tag, candidates, lower]
  | cons country rest =>
    cases hcountry : country.isEmpty with
    | true => simp [ofPieces, keptParts, tag, candidates, lower, hcountry]
    | false =>
      cases hrest : rest.filter (!·.isEmpty) with
      | nil => simp [ofPieces, keptParts, tag, candidates, lower, upper, hcountry, hrest]
      | cons part more =>
        simp [ofPieces, keptParts, tag, candidates, lower, upper, hcountry, hrest, join,
          Function.comp_def]

theorem lower_map_toLower (s : List Char) :
    lower (String.ofList (s.map Char.toLower)) = lower (String.ofList s) := by
  simp [lower, Function.comp_def]

theorem upper_map_toUpper (s : List Char) :
    upper (String.ofList (s.map Char.toUpper)) = upper (String.ofList s) := by
  simp [upper, Function.comp_def]

/-- The kept parts make the same locale, unless it has a variant without a country. -/
theorem ofPieces_keptParts_eq_iff (language : List Char) (parts : List (List Char)) :
    ofPieces (language.map Char.toLower) (keptParts parts) = ofPieces language parts ↔
      ((ofPieces language parts).country = none → (ofPieces language parts).variant = none) := by
  cases parts with
  | nil => simp [ofPieces, keptParts, lower_map_toLower]
  | cons country rest =>
    cases hcountry : country.isEmpty with
    | true =>
      cases hrest : rest.filter (!·.isEmpty) with
      | nil => simp [ofPieces, keptParts, lower_map_toLower, hcountry, hrest]
      | cons part more => simp [ofPieces, keptParts, hcountry, hrest]
    | false => simp [ofPieces, keptParts, lower_map_toLower, upper_map_toUpper, hcountry]

theorem sum_length_keptParts_le (parts : List (List Char)) :
    ((keptParts parts).map fun w => w.length + 1).sum ≤
      (parts.map fun w => w.length + 1).sum := by
  cases parts with
  | nil => exact Nat.le_refl _
  | cons country rest =>
    have hrest := sum_length_le_of_sublist (rest.filter_sublist (p := (!·.isEmpty)))
    rw [keptParts]
    split
    · exact Nat.zero_le _
    · simp only [List.map_cons, List.sum_cons, List.length_map]
      omega

/-- A tag is not longer than the text that the locale was read from is without blanks around it. -/
theorem length_tag_le {tag : String} {l : Locale} (h : ofTag? tag = some l) :
    l.tag.toList.length ≤ (trim tag.toList).length := by
  obtain ⟨language, parts, hpieces, -, -, rfl⟩ := ofTag?_eq_some_iff.mp h
  have htext := sum_length_splitAll isSeparator (trim tag.toList)
  have htag := length_intercalate '_'
    (List.cons_ne_nil (language.map Char.toLower) (keptParts parts))
  have hparts := sum_length_keptParts_le parts
  rw [hpieces] at htext
  rw [toList_tag_ofPieces]
  simp only [List.map_cons, List.sum_cons, List.length_map] at htext htag
  omega

theorem isAsciiLetter_eq_isAlpha (c : Char) : isAsciiLetter c = c.isAlpha := by
  unfold isAsciiLetter Char.isAlpha Char.isUpper Char.isLower
  rw [Bool.or_comm]
  simp [Char.le_def]

theorem not_isSeparator_of_isAlpha {c : Char} (h : c.isAlpha = true) : isSeparator c = false := by
  rw [isSeparator, Bool.or_eq_false_iff, beq_eq_false_iff_ne, beq_eq_false_iff_ne]
  constructor
  · rintro rfl
    exact absurd h (by decide)
  · rintro rfl
    exact absurd h (by decide)

theorem not_isBlank_of_isAlpha {c : Char} (h : c.isAlpha = true) : isBlank c = false := by
  have hrange : 65 ≤ c.toNat ∧ c.toNat ≤ 122 := by
    simp only [Char.isAlpha, Char.isUpper, Char.isLower, Bool.or_eq_true, Bool.and_eq_true,
      decide_eq_true_eq, UInt32.le_iff_toNat_le] at h
    have : c.toNat = c.val.toNat := rfl
    simp at h
    omega
  simp [isBlank]
  omega

theorem not_isSeparator_toUpper {c : Char} (h : isSeparator c = false) :
    isSeparator c.toUpper = false := by
  by_cases hc : c.isLower = true
  · have halpha : c.isAlpha = true := by simp [Char.isAlpha, hc]
    exact not_isSeparator_of_isAlpha (Char.isAlpha_toUpper_eq_isAlpha c ▸ halpha)
  · rwa [Char.toUpper_eq_of_not_isLower hc]

theorem not_isSeparator_of_mem_keptParts {parts : List (List Char)}
    (hparts : ∀ part ∈ parts, ∀ c ∈ part, isSeparator c = false) :
    ∀ part ∈ keptParts parts, ∀ c ∈ part, isSeparator c = false := by
  cases parts with
  | nil => exact hparts
  | cons country rest =>
    obtain ⟨hcountry, hrest⟩ := List.forall_mem_cons.mp hparts
    rw [keptParts]
    split
    · nofun
    · refine List.forall_mem_cons.mpr ⟨?_, fun part hpart => ?_⟩
      · simpa using fun c hc => not_isSeparator_toUpper (hcountry c hc)
      · exact hrest part (List.mem_filter.mp hpart).1

variable {language : List Char} {parts : List (List Char)}

theorem isAlpha_of_mem_lowered (h : language.all isAsciiLetter = true) :
    ∀ c ∈ language.map Char.toLower, c.isAlpha = true := by
  intro lowered hlowered
  obtain ⟨c, hc, rfl⟩ := List.mem_map.mp hlowered
  rw [Char.isAlpha_toLower_eq_isAlpha, ← isAsciiLetter_eq_isAlpha]
  exact List.all_eq_true.mp h c hc

/-- The pieces that a tag is put together from are found in it again. -/
theorem splitAll_tag (hlanguage : language.all isAsciiLetter = true)
    (hparts : ∀ part ∈ parts, ∀ c ∈ part, isSeparator c = false) :
    splitAll isSeparator (ofPieces language parts).tag.toList =
      language.map Char.toLower :: keptParts parts := by
  rw [toList_tag_ofPieces]
  refine splitAll_intercalate (by decide) (List.cons_ne_nil _ _) (List.forall_mem_cons.mpr ⟨?_, ?_⟩)
  · exact fun c hc => not_isSeparator_of_isAlpha (isAlpha_of_mem_lowered hlanguage c hc)
  · exact not_isSeparator_of_mem_keptParts hparts

theorem head_tag (hne : language ≠ []) (hlanguage : language.all isAsciiLetter = true) :
    ∀ c ∈ (ofPieces language parts).tag.toList.head?, isBlank c = false := by
  obtain ⟨first, more, rfl⟩ := List.exists_cons_of_ne_nil hne
  have hhead : (ofPieces (first :: more) parts).tag.toList.head? = some first.toLower := by
    rw [toList_tag_ofPieces]
    cases keptParts parts with
    | nil => simp
    | cons part rest => simp
  intro c hc
  rw [hhead, Option.mem_some_iff] at hc
  exact hc ▸ not_isBlank_of_isAlpha (isAlpha_of_mem_lowered hlanguage _ (by simp))

/-- A locale that was read from a text is read again from its tag exactly if it has no variant
without a country and its tag does not end in a blank. -/
theorem ofTag?_tag_eq_some_iff {tag : String} {l : Locale} (h : ofTag? tag = some l) :
    ofTag? l.tag = some l ↔
      (l.country = none → l.variant = none) ∧ ∀ c ∈ l.tag.toList.getLast?, isBlank c = false := by
  obtain ⟨language, parts, hpieces, hne, hlanguage, rfl⟩ := ofTag?_eq_some_iff.mp h
  have hparts : ∀ part ∈ parts, ∀ c ∈ part, isSeparator c = false := fun part hpart =>
    not_separator_of_mem_splitAll (hpieces ▸ List.mem_cons_of_mem language hpart)
  have htag : (∀ c ∈ (ofPieces language parts).tag.toList.getLast?, isBlank c = false) →
      ofTag? (ofPieces language parts).tag =
        some (ofPieces (language.map Char.toLower) (keptParts parts)) := by
    intro hlast
    rw [ofTag?_eq_some_iff]
    refine ⟨_, _, ?_, by simpa using hne, ?_, rfl⟩
    · rw [trim_eq_self (head_tag hne hlanguage) hlast, splitAll_tag hlanguage hparts]
    · rw [List.all_eq_true]
      intro c hc
      rw [isAsciiLetter_eq_isAlpha]
      exact isAlpha_of_mem_lowered hlanguage c hc
  constructor
  · intro hsame
    have hlast := getLast_of_length_le_trim (length_tag_le hsame)
    rw [htag hlast, Option.some.injEq, ofPieces_keptParts_eq_iff] at hsame
    exact ⟨hsame, hlast⟩
  · rintro ⟨hvariant, hlast⟩
    rw [htag hlast, (ofPieces_keptParts_eq_iff language parts).mpr hvariant]

/-- Blanks around the text, both separators, empty parts and blanks within. -/
theorem ofTag?_tag_eq_some_iff_mixed :
    let l : Locale := { language := "zh", country := some "TW ", variant := some "x_ Hant" }
    ofTag? " ZH-tw _x-_ Hant__ " = some l ∧ l.tag = "zh_TW _x_ Hant" ∧ ofTag? l.tag = some l := by
  intro l
  have hread : ofTag? " ZH-tw _x-_ Hant__ " = some l := by decide +kernel
  refine ⟨hread, by decide +kernel, (ofTag?_tag_eq_some_iff hread).mpr ⟨nofun, ?_⟩⟩
  have hlast : l.tag.toList.getLast? = some 't' := by decide +kernel
  rw [hlast]
  rintro c ⟨⟩
  rfl

/-- A variant without a country is not in the tag, and neither is a blank at the end of a part that
only empty parts follow. -/
theorem ofTag?_tag_ne_of_variant_alone :
    let posix : Locale := { language := "en", variant := some "POSIX" }
    let blank : Locale := { language := "en", country := some "US " }
    ofTag? "en__POSIX" = some posix ∧ posix.tag = "en" ∧ ofTag? posix.tag ≠ some posix ∧
      ofTag? "en_US _" = some blank ∧ blank.tag = "en_US " ∧ ofTag? blank.tag ≠ some blank := by
  decide +kernel

end Locale
end ScreenActions
