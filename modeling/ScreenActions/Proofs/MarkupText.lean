import ScreenActions.Proofs.TextParts
import ScreenActions.Text.Markup

/-!
Escaped texts read back. An escaped text has no character with a meaning in markup but ampersands,
and each of these begins a reference.
-/

namespace ScreenActions

namespace Number

theorem isDigit_of_mem_naturalText {n : Nat} {c : Char} (h : c ∈ naturalText n) :
    isDigit c = true := by
  have hc : c.isDigit = true := Nat.isDigit_of_mem_toDigits (by decide) (by decide) h
  simpa [isDigit, Char.isDigit, Char.le_def] using hc

theorem natural?_naturalText (n : Nat) : natural? (naturalText n) = some n := by
  have hne : naturalText n ≠ [] := Nat.toDigits_ne_nil
  have hall : (naturalText n).all isDigit = true :=
    List.all_eq_true.mpr fun c hc => isDigit_of_mem_naturalText hc
  have hvalue : digitsValue 0 (naturalText n) = n := by
    have h := Nat.ofDigitChars_toDigits (b := 10) (n := n) (by decide) (by decide)
    rwa [Nat.ofDigitChars_eq_foldl] at h
  simp [natural?, hne, hall, hvalue]

end Number

namespace Text

namespace Markup

open Number

theorem not_isSpecial_of_isDigit {c : Char} (h : isDigit c = true) : isSpecial c = false := by
  rw [Bool.eq_false_iff]
  intro hc
  simp only [isSpecial, Bool.or_eq_true, beq_iff_eq] at hc
  rcases hc with (((rfl | rfl) | rfl) | rfl) | rfl <;> exact absurd h (by decide)

/-- What follows the ampersand of a reference. -/
def referenceTail (c : Char) : List Char := '#' :: naturalText c.toNat ++ [';']

theorem reference_eq (c : Char) : reference c = '&' :: referenceTail c := rfl

theorem escape_cons (c : Char) (s : List Char) :
    escape (c :: s) = (if isSpecial c then reference c else [c]) ++ escape s :=
  List.flatMap_cons

theorem not_isSpecial_of_mem_referenceTail {c x : Char} (h : x ∈ referenceTail c) :
    isSpecial x = false := by
  simp only [referenceTail, List.cons_append, List.mem_cons, List.mem_append, List.not_mem_nil,
    or_false] at h
  rcases h with rfl | h | rfl
  · rfl
  · exact not_isSpecial_of_isDigit (isDigit_of_mem_naturalText h)
  · rfl

theorem readReference_referenceTail (c : Char) (rest : List Char) :
    readReference (referenceTail c ++ rest) = some (c, (referenceTail c).length) := by
  have hsep : ';' ∉ naturalText c.toNat := fun h =>
    absurd (isDigit_of_mem_naturalText h) (by decide)
  have hcut := cutFirst_append hsep rest
  have hvalid : c.toNat.isValidChar := c.valid
  simp only [Nat.isValidChar] at hvalid
  simp [referenceTail, readReference, hcut, natural?_naturalText, hvalid]

theorem unescape_reference (c : Char) (rest : List Char) :
    unescape (reference c ++ rest) = (unescape rest).map (c :: ·) := by
  rw [reference_eq, List.cons_append, unescape, if_pos rfl, readReference_referenceTail]
  simp

theorem unescape_escape (s : List Char) : unescape (escape s) = some s := by
  induction s with
  | nil => simp [escape, unescape]
  | cons c s ih =>
    rw [escape_cons]
    split
    · rw [unescape_reference, ih, Option.map_some]
    · next hc =>
      have hne : c ≠ '&' := by
        rintro rfl
        exact hc rfl
      rw [List.singleton_append, unescape, if_neg hne, ih, Option.map_some]

/-- An ampersand is the only character with a meaning in an escaped text. -/
theorem eq_of_mem_escape {s : List Char} {c : Char} (h : c ∈ escape s) (hc : isSpecial c = true) :
    c = '&' := by
  obtain ⟨x, -, hx⟩ := List.mem_flatMap.mp h
  split at hx
  · rw [reference_eq] at hx
    rcases List.mem_cons.mp hx with rfl | hx
    · rfl
    · simp [not_isSpecial_of_mem_referenceTail hx] at hc
  · next hspecial =>
    rw [List.mem_singleton.mp hx] at hc
    exact absurd hc hspecial

theorem not_mem_escape {s : List Char} {c : Char} (hc : isSpecial c = true) (hne : c ≠ '&') :
    c ∉ escape s := fun h => hne (eq_of_mem_escape h hc)

/-- Each ampersand of an escaped text begins a reference. -/
theorem readReference_of_escape_eq {s before rest : List Char}
    (h : escape s = before ++ '&' :: rest) : (readReference rest).isSome = true := by
  induction s generalizing before with
  | nil => simp [escape] at h
  | cons c s ih =>
    -- the ampersand stands in the rest of the text or in what is written for `c`
    rw [escape_cons] at h
    rcases List.append_eq_append_iff.mp h with ⟨between, -, hs⟩ | ⟨piece, hpiece, hrest⟩
    · exact ih hs
    cases piece with
    | nil => exact @ih [] hrest.symm
    | cons x piece =>
      obtain ⟨rfl, rfl⟩ := List.cons.inj hrest
      split at hpiece
      · rw [reference_eq] at hpiece
        cases before with
        | nil =>
          obtain ⟨-, rfl⟩ := List.cons.inj hpiece
          simp [readReference_referenceTail]
        | cons y before =>
          obtain ⟨-, htail⟩ := List.cons.inj hpiece
          have hmem : '&' ∈ referenceTail c := by simp [htail]
          exact absurd (not_isSpecial_of_mem_referenceTail hmem) (by decide)
      · next hc =>
        have hmem : '&' ∈ [c] := by simp [hpiece]
        rw [← List.mem_singleton.mp hmem] at hc
        exact absurd rfl hc

end Markup
end Text
end ScreenActions
