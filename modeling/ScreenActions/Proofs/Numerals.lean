import Mathlib.Algebra.Group.Nat.Defs
import ScreenActions.Proofs.MarkupText

/-!
Numerals and the numbers that they spell: a row of digits, and a row of digits with a sign.
-/

namespace ScreenActions.Number

open Text

theorem isDigit_eq (c : Char) : isDigit c = c.isDigit := by
  simp [isDigit, Char.isDigit, Char.le_def]

/-- A row of digits that is not empty spells a natural number. -/
structure SpellsNatural (s : List Char) (n : Nat) : Prop where
  ne_nil : s ≠ []
  isDigit_of_mem : ∀ c ∈ s, c.isDigit = true
  value : Nat.ofDigitChars 10 s 0 = n

theorem digitsValue_eq (s : List Char) : digitsValue 0 s = Nat.ofDigitChars 10 s 0 := by
  rw [Nat.ofDigitChars_eq_foldl]
  rfl

theorem natural?_eq_some_iff {s : List Char} {n : Nat} :
    natural? s = some n ↔ SpellsNatural s n := by
  unfold natural?
  rw [digitsValue_eq]
  constructor
  · intro h
    split at h
    · next hdigits =>
      obtain ⟨hne, hall⟩ : s ≠ [] ∧ ∀ c ∈ s, isDigit c = true := by simpa using hdigits
      exact ⟨hne, fun c hc => isDigit_eq c ▸ hall c hc, Option.some.inj h⟩
    · cases h
  · rintro ⟨hne, hall, rfl⟩
    rw [if_pos]
    simpa [hne, isDigit_eq] using hall

/-- A whole number as it may be written: digits, with a sign before them or without one. -/
inductive SpellsInteger : List Char → Int → Prop
  | unsigned {s : List Char} {n : Nat} (digits : SpellsNatural s n) : SpellsInteger s n
  | plus {s : List Char} {n : Nat} (digits : SpellsNatural s n) : SpellsInteger ('+' :: s) n
  | minus {s : List Char} {n : Nat} (digits : SpellsNatural s n) : SpellsInteger ('-' :: s) (-n)

theorem SpellsNatural.not_sign {c : Char} {s : List Char} {n : Nat} (h : SpellsNatural (c :: s) n) :
    c ≠ '-' ∧ c ≠ '+' := by
  have hdigit := h.isDigit_of_mem c List.mem_cons_self
  constructor <;>
    · rintro rfl
      exact absurd hdigit (by decide)

theorem SpellsNatural.head {s : List Char} {n : Nat} (h : SpellsNatural s n) (rest : List Char) :
    ∀ c ∈ (s ++ rest).head?, isDigit c = true := by
  obtain ⟨c, s, rfl⟩ := List.exists_cons_of_ne_nil h.ne_nil
  intro d hd
  obtain rfl : c = d := by simpa using hd
  exact (isDigit_eq c).trans (h.isDigit_of_mem c List.mem_cons_self)

/-- The digits end where no digit follows. -/
theorem SpellsNatural.takeWhile_append {s rest : List Char} {n : Nat} (h : SpellsNatural s n)
    (hrest : ∀ c ∈ rest.head?, isDigit c = false) : (s ++ rest).takeWhile isDigit = s := by
  have hs : ∀ c ∈ s, isDigit c = true := fun c hc => (isDigit_eq c).trans (h.isDigit_of_mem c hc)
  rw [List.takeWhile_append_of_pos hs]
  cases rest with
  | nil => simp
  | cons c rest => rw [List.takeWhile_cons_of_neg (by simp [hrest c rfl]), List.append_nil]

theorem SpellsNatural.dropWhile_append {s rest : List Char} {n : Nat} (h : SpellsNatural s n)
    (hrest : ∀ c ∈ rest.head?, isDigit c = false) : (s ++ rest).dropWhile isDigit = rest := by
  have hsplit := List.takeWhile_append_dropWhile (p := isDigit) (l := s ++ rest)
  rw [h.takeWhile_append hrest] at hsplit
  exact List.append_cancel_left hsplit

theorem SpellsInteger.ne_nil {s : List Char} {n : Int} (h : SpellsInteger s n) : s ≠ [] := by
  cases h with
  | unsigned digits => exact digits.ne_nil
  | plus digits => exact List.cons_ne_nil _ _
  | minus digits => exact List.cons_ne_nil _ _

theorem bind_range_eq_some_iff {low high n : Int} {read : Option Int} :
    (read.bind fun n => if low ≤ n ∧ n ≤ high then some n else none) = some n ↔
      read = some n ∧ low ≤ n ∧ n ≤ high := by
  simp only [Option.bind_eq_some_iff, Option.ite_none_right_eq_some, Option.some.injEq]
  constructor
  · rintro ⟨m, hread, hrange, rfl⟩
    exact ⟨hread, hrange⟩
  · rintro ⟨hread, hrange⟩
    exact ⟨n, hread, hrange, rfl⟩

theorem natural?_map_eq_some_iff {s : List Char} {sign : Int → Int} {k : Int} :
    Option.map sign (natural? s >>= fun n => pure (n : Int)) = some k ↔
      ∃ n : Nat, SpellsNatural s n ∧ sign n = k := by
  simp [Option.bind_eq_some_iff, natural?_eq_some_iff]

/-- An integer in a range is read from what spells it, and from nothing else. -/
theorem integer?_eq_some_iff {low high : Int} {s : List Char} {n : Int} :
    integer? low high s = some n ↔ SpellsInteger s n ∧ low ≤ n ∧ n ≤ high := by
  unfold integer?
  dsimp only
  rw [bind_range_eq_some_iff]
  refine and_congr_left' ?_
  split <;> rw [natural?_map_eq_some_iff]
  · constructor
    · rintro ⟨k, digits, rfl⟩
      exact .minus digits
    · rintro (digits | digits | digits)
      · exact absurd rfl digits.not_sign.1
      · exact ⟨_, digits, rfl⟩
  · constructor
    · rintro ⟨k, digits, rfl⟩
      exact .plus digits
    · rintro (digits | digits | digits)
      · exact absurd rfl digits.not_sign.2
      · exact ⟨_, digits, rfl⟩
  · next hminus hplus =>
    constructor
    · rintro ⟨k, digits, rfl⟩
      exact .unsigned digits
    · rintro (digits | digits | digits)
      · exact ⟨_, digits, rfl⟩
      · exact absurd rfl (hplus _)
      · exact absurd rfl (hminus _)

theorem unsigned?_of_spellsNatural {limit : Nat} {s : List Char} {n : Nat} (h : SpellsNatural s n) :
    unsigned? limit s = if n ≤ limit then some n else none := by
  have hread : natural? s = some n := natural?_eq_some_iff.mpr h
  unfold unsigned?
  split
  · exact absurd rfl h.not_sign.2
  · dsimp only
    rw [hread]
    rfl

theorem spellsNatural_naturalText (n : Nat) : SpellsNatural (naturalText n) n :=
  natural?_eq_some_iff.mp (natural?_naturalText n)

theorem spellsNatural_paddedText (width n : Nat) : SpellsNatural (paddedText width n) n := by
  obtain ⟨hne, hdigits, hvalue⟩ := spellsNatural_naturalText n
  refine ⟨by simp [paddedText, hne], fun c hc => ?_, ?_⟩
  · rcases List.mem_append.mp hc with hc | hc
    · obtain ⟨-, rfl⟩ := List.mem_replicate.mp hc
      rfl
    · exact hdigits c hc
  · rw [paddedText, Nat.ofDigitChars_append, Nat.ofDigitChars_replicate_zero, Nat.mul_zero]
    exact hvalue

/-- A number with few digits is filled up to the width. -/
theorem length_paddedText {width n : Nat} (hwidth : 0 < width) (h : n < 10 ^ width) :
    (paddedText width n).length = width := by
  have hle : (naturalText n).length ≤ width :=
    (Nat.length_toDigits_le_iff (by decide) hwidth).mpr h
  simp only [paddedText, List.length_append, List.length_replicate]
  omega

theorem length_naturalText {k n : Nat} (hk : 0 < k) (hlow : 10 ^ k ≤ n) (hhigh : n < 10 ^ (k + 1)) :
    (naturalText n).length = k + 1 := by
  have hle : (naturalText n).length ≤ k + 1 :=
    (Nat.length_toDigits_le_iff (by decide) (Nat.succ_pos k)).mpr hhigh
  have hnot : ¬(naturalText n).length ≤ k := fun h =>
    Nat.not_lt.mpr hlow ((Nat.length_toDigits_le_iff (by decide) hk).mp h)
  omega

theorem unsigned?_naturalText {limit n : Nat} (h : n ≤ limit) :
    unsigned? limit (naturalText n) = some n := by
  rw [unsigned?_of_spellsNatural (spellsNatural_naturalText n), if_pos h]

theorem not_isBlank_of_isDigit {c : Char} (h : isDigit c = true) : isBlank c = false := by
  have hdigit : '0'.toNat ≤ c.toNat ∧ c.toNat ≤ '9'.toNat := by
    simpa [isDigit, Char.le_def, UInt32.le_iff_toNat_le] using h
  have hlow : '0'.toNat = 48 := rfl
  have hhigh : '9'.toNat = 57 := rfl
  simp [isBlank]
  omega

theorem SpellsNatural.trimStart_append {s : List Char} {n : Nat} (h : SpellsNatural s n)
    (rest : List Char) : trimStart (s ++ rest) = s ++ rest :=
  trimStart_of_head fun c hc => not_isBlank_of_isDigit (h.head rest c hc)

end ScreenActions.Number
