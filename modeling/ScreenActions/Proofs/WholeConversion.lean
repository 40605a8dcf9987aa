import Mathlib.Data.List.TakeWhile
import Mathlib.Data.Rat.Floor
import ScreenActions.Proofs.Numerals
import ScreenActions.Proofs.TypeNames

/-!
Conversion of values to whole numbers. A value denotes a rational number, and a whole number of it
is that number truncated toward zero.
-/

namespace ScreenActions

open Number Text

/-! ### Truncation -/

/-- The whole part of a number, toward zero. -/
def towardZero (q : ℚ) : ℤ := if 0 ≤ q then ⌊q⌋ else ⌈q⌉

def signed (negative : Bool) (q : ℚ) : ℚ := if negative then -q else q

@[simp] theorem towardZero_intCast (n : ℤ) : towardZero n = n := by
  unfold towardZero
  split
  · exact Int.floor_intCast n
  · exact Int.ceil_intCast n

theorem towardZero_nonneg {q : ℚ} (h : 0 ≤ q) : 0 ≤ towardZero q := by
  rw [towardZero, if_pos h]
  exact Int.floor_nonneg.mpr h

theorem towardZero_neg (q : ℚ) : towardZero (-q) = -towardZero q := by
  unfold towardZero
  rcases lt_trichotomy q 0 with h | rfl | h
  · rw [if_pos (by linarith), if_neg (by linarith), Int.floor_neg]
  · simp
  · rw [if_neg (by linarith), if_pos h.le, Int.ceil_neg]

theorem towardZero_nonpos {q : ℚ} (h : q ≤ 0) : towardZero q ≤ 0 := by
  have hneg := towardZero_nonneg (neg_nonneg.mpr h)
  rw [towardZero_neg] at hneg
  omega

theorem towardZero_div (a b : ℕ) : towardZero (a / b) = ((a / b : ℕ) : ℤ) := by
  rw [towardZero, if_pos (by positivity), Rat.floor_natCast_div_natCast, Int.natCast_ediv]

theorem towardZero_signed_div (negative : Bool) (a b : ℕ) :
    towardZero (signed negative (a / b)) =
      if negative then -((a / b : ℕ) : ℤ) else ((a / b : ℕ) : ℤ) := by
  cases negative with
  | false => exact towardZero_div a b
  | true => exact (towardZero_neg _).trans (congrArg Neg.neg (towardZero_div a b))

theorem Binary64.magnitude_eq (m : ℕ) (e : ℤ) :
    ((magnitude m e).1 / (magnitude m e).2 : ℚ) = m * 2 ^ e := by
  unfold magnitude scaled twos
  split
  · next h =>
    obtain ⟨k, rfl⟩ := Int.eq_ofNat_of_zero_le h
    simp
  · next h =>
    obtain ⟨k, hk⟩ := Int.eq_ofNat_of_zero_le (show 0 ≤ -e by omega)
    obtain rfl : e = -k := by omega
    simp [div_eq_mul_inv]

theorem Binary64.truncate?_finite (negative : Bool) (m : ℕ) (e : ℤ) :
    truncate? (.finite negative m e) = some (towardZero (signed negative (m * 2 ^ e))) := by
  rw [← magnitude_eq, towardZero_signed_div]
  rfl

theorem Decimal.truncate_eq (d : Decimal) :
    d.truncate = towardZero (signed d.negative (d.mantissa / 10 ^ d.scale)) := by
  have htens : ((10 : ℚ) ^ d.scale) = (tens d.scale : ℕ) := by simp [tens]
  rw [htens, towardZero_signed_div]
  rfl

/-! ### Whole numbers -/

/-- The rational number that a value denotes: an integer, a finite double, a decimal, or a text of
a numeral with blanks around it. -/
inductive Value.Denotes : Value → ℚ → Prop
  | int (n : ℤ) : Denotes (.int n) n
  | float (negative : Bool) (m : ℕ) (e : ℤ) :
      Denotes (.float (.finite negative m e)) (signed negative (m * 2 ^ e))
  | decimal (d : Decimal) : Denotes (.decimal d) (signed d.negative (d.mantissa / 10 ^ d.scale))
  | text {s : String} {n : ℤ} (spells : SpellsInteger (trim s.toList) n) : Denotes (.text s) n

theorem Value.Denotes.float_unique {x : Binary64} {q q' : ℚ} (h : Denotes (.float x) q)
    (h' : Denotes (.float x) q') : q = q' := by
  cases h
  cases h'
  rfl

/-- The types of whole numbers. -/
inductive WholeType
  | integer | long

namespace WholeType

def type : WholeType → FieldType
  | .integer => .integer
  | .long => .long

def low : WholeType → ℤ
  | .integer => int32Min
  | .long => int64Min

def high : WholeType → ℤ
  | .integer => int32Max
  | .long => int64Max

def Holds (t : WholeType) (n : ℤ) : Prop := t.low ≤ n ∧ n ≤ t.high

theorem holds_long {t : WholeType} {n : ℤ} (h : t.Holds n) : long.Holds n := by
  cases t with
  | integer =>
    obtain ⟨hlow, hhigh⟩ := h
    simp only [low, high, int32Min, int32Max] at hlow hhigh
    constructor <;> simp only [low, high, int64Min, int64Max] <;> omega
  | long => exact h

/-- The ends of the range are long integers and too large for the others. -/
theorem holds_clamped (q : ℚ) : long.Holds (if q < 0 then int64Min else int64Max) := by
  split <;> exact ⟨by decide, by decide⟩

theorem not_holds_clamped (q : ℚ) : ¬integer.Holds (if q < 0 then int64Min else int64Max) := by
  rintro ⟨hlow, hhigh⟩
  split at hlow
  · exact absurd hlow (by decide)
  · next hq => exact absurd (if_neg hq ▸ hhigh) (by decide)

end WholeType

theorem Number.clampInt64_of_holds {n : ℤ} (h : WholeType.long.Holds n) : clampInt64 n = n := by
  obtain ⟨hlow, hhigh⟩ : int64Min ≤ n ∧ n ≤ int64Max := h
  rw [clampInt64, min_eq_right hhigh, max_eq_right hlow]

/-- What a number outside the range is clamped to depends on its sign only. -/
theorem Number.clampInt64_towardZero {q : ℚ} (h : ¬WholeType.long.Holds (towardZero q)) :
    clampInt64 (towardZero q) = if q < 0 then int64Min else int64Max := by
  have houtside : towardZero q < int64Min ∨ int64Max < towardZero q := by
    by_contra hinside
    rw [not_or, not_lt, not_lt] at hinside
    exact h hinside
  have hmin : int64Min < 0 := by decide
  have hmax : 0 < int64Max := by decide
  unfold clampInt64
  split
  · next hneg =>
    have := towardZero_nonpos hneg.le
    omega
  · next hneg =>
    have := towardZero_nonneg (not_lt.mp hneg)
    omega

namespace Conversion

theorem whole?_of_denotes {v : Value} {q : ℚ} (h : v.Denotes q)
    (hrange : WholeType.long.Holds (towardZero q)) : whole? v = some (towardZero q) := by
  cases h with
  | int n => rw [whole?, towardZero_intCast]
  | float negative m e =>
    rw [whole?, Binary64.truncate?_finite, Option.map_some, clampInt64_of_holds hrange]
  | decimal d =>
    simp only [whole?, Decimal.truncate_eq]
    exact if_pos hrange
  | text spells =>
    rw [towardZero_intCast] at hrange ⊢
    exact integer?_eq_some_iff.mpr ⟨spells, hrange⟩

/-- The whole number that is read from a value: the one it denotes when it is truncated, or the
nearest end of the range for a double beyond it. -/
inductive ReadsAs : Value → ℤ → Prop
  | exact {v : Value} {q : ℚ} (denotes : v.Denotes q) : ReadsAs v (towardZero q)
  | clamped {x : Binary64} {q : ℚ} (denotes : (Value.float x).Denotes q)
      (outside : ¬WholeType.long.Holds (towardZero q)) :
      ReadsAs (.float x) (if q < 0 then int64Min else int64Max)

theorem ReadsAs.of_eq {v : Value} {q : ℚ} {n : ℤ} (denotes : v.Denotes q) (h : towardZero q = n) :
    ReadsAs v n := h ▸ .exact denotes

theorem readsAs_of_whole? {v : Value} {n : ℤ} (h : whole? v = some n) : ReadsAs v n := by
  cases v with
  | int m =>
    exact .of_eq (.int m) ((towardZero_intCast m).trans (Option.some.inj h))
  | float x =>
    cases x with
    | finite negative m e =>
      rw [whole?, Binary64.truncate?_finite, Option.map_some, Option.some.injEq] at h
      have denotes := Value.Denotes.float negative m e
      by_cases hrange : WholeType.long.Holds (towardZero (signed negative (m * 2 ^ e)))
      · rw [clampInt64_of_holds hrange] at h
        exact .of_eq denotes h
      · rw [clampInt64_towardZero hrange] at h
        exact h ▸ .clamped denotes hrange
    | nan => cases h
    | infinite negative => cases h
  | decimal d =>
    have htruncate : d.truncate = n := (by simpa [whole?] using h : _ ∧ d.truncate = n).2
    exact .of_eq (.decimal d) (d.truncate_eq.symm.trans htruncate)
  | text s => exact .of_eq (.text (integer?_eq_some_iff.mp h).1) (towardZero_intCast n)
  | _ => cases h

theorem to?_whole_iff {heap : BundleHeap} {v w : Value} {t : WholeType} :
    to? heap v t.type = some w ↔
      ∃ n, whole? v = some n ∧ (t = .integer → t.Holds n) ∧ .int n = w := by
  cases t with
  | integer =>
    simp only [WholeType.type, to?, integer?, Option.bind_eq_some_iff,
      Option.ite_none_right_eq_some, Option.some.injEq, WholeType.Holds, WholeType.low,
      WholeType.high, forall_const]
  | long =>
    simp only [WholeType.type, to?, long?, Option.map_eq_some_iff, reduceCtorEq,
      false_implies, true_and]

end Conversion

/-- A conversion to a whole number that is exact or fails. -/
inductive Value.ExactOrFails (v : Value) : Except ConversionError Value → Prop
  | failure (e : ConversionError) : ExactOrFails v (.error e)
  | blank {s : String} (htext : v = .text s) (hblank : ∀ c ∈ s.toList, isBlank c = true) :
      ExactOrFails v (.ok .null)
  | exact {q : ℚ} (denotes : v.Denotes q) : ExactOrFails v (.ok (.int (towardZero q)))

/-- A double beyond the long integers is to become one of them. -/
def WholeType.Overflows (t : WholeType) (v : Value) : Prop :=
  t = .long ∧ ∃ x q, v = .float x ∧ v.Denotes q ∧ ¬t.Holds (towardZero q)

namespace Value

theorem Denotes.not_isBlankValue {v : Value} {q : ℚ} (h : v.Denotes q) :
    Conversion.isBlankValue v = false := by
  rw [Bool.eq_false_iff]
  intro hblank
  obtain ⟨s, rfl, hall⟩ := isBlankValue_iff.mp hblank
  have htrim : trim s.toList = [] := by
    rw [trim, show trimStart s.toList = [] from List.dropWhile_eq_nil_iff.mpr hall]
    rfl
  cases h with
  | text spells => exact spells.ne_nil htrim

theorem convert_of_names (heap : BundleHeap) {v : Value} (hv : v ≠ .null) {t : WholeType}
    {name : String} (hname : t.type.Names name) :
    v.convert heap name =
      if Conversion.isBlankValue v then .ok .null
      else (Conversion.to? heap v t.type).elim
        (.error (.invalid v.typeName t.type.name (v.display heap))) .ok := by
  have hdrops : t.type.dropsBlanks = true := by cases t <;> rfl
  rw [convert_of_type heap hv hname.ofQualified?, hdrops, Bool.true_and]

theorem convert_of_whole {v : Value} {q : ℚ} (denotes : v.Denotes q) {t : WholeType} {n : ℤ}
    (hwhole : Conversion.whole? v = some n) (hn : t = .integer → t.Holds n) {name : String}
    (hname : t.type.Names name) (heap : BundleHeap) : v.convert heap name = .ok (.int n) := by
  have hv : v ≠ .null := by
    rintro rfl
    cases denotes
  have hto : Conversion.to? heap v t.type = some (.int n) :=
    Conversion.to?_whole_iff.mpr ⟨n, hwhole, hn, rfl⟩
  rw [convert_of_names heap hv hname, denotes.not_isBlankValue, hto]
  rfl

/-- A number of the type is what the conversion gives. -/
theorem convert_of_holds {v : Value} {q : ℚ} (denotes : v.Denotes q) {t : WholeType}
    (hq : t.Holds (towardZero q)) {name : String} (hname : t.type.Names name)
    (heap : BundleHeap) : v.convert heap name = .ok (.int (towardZero q)) :=
  convert_of_whole denotes (Conversion.whole?_of_denotes denotes (WholeType.holds_long hq))
    (fun _ => hq) hname heap

/-- A double beyond the long integers comes to the nearest of them. -/
theorem convert_of_overflows {v : Value} {q : ℚ} (denotes : v.Denotes q) {t : WholeType}
    (h : t.Overflows v) {name : String} (hname : t.type.Names name) (heap : BundleHeap) :
    v.convert heap name = .ok (.int (if q < 0 then int64Min else int64Max)) := by
  obtain ⟨rfl, x, q', rfl, denotes', houtside⟩ := h
  obtain rfl := denotes.float_unique denotes'
  refine convert_of_whole denotes ?_ (fun hinteger => by cases hinteger) hname heap
  cases denotes with
  | float negative m e =>
    rw [Conversion.whole?, Binary64.truncate?_finite, Option.map_some,
      clampInt64_towardZero houtside]

theorem exactOrFails_of_not_overflows (heap : BundleHeap) {v : Value} (hv : v ≠ .null)
    {t : WholeType} (h : ¬t.Overflows v) {name : String} (hname : t.type.Names name) :
    v.ExactOrFails (v.convert heap name) := by
  rw [convert_of_names heap hv hname]
  split
  · next hblank =>
    obtain ⟨s, hs, hall⟩ := isBlankValue_iff.mp hblank
    exact .blank hs hall
  · cases hto : Conversion.to? heap v t.type with
    | none => exact .failure _
    | some w =>
      obtain ⟨n, hwhole, hn, rfl⟩ := Conversion.to?_whole_iff.mp hto
      cases Conversion.readsAs_of_whole? hwhole with
      | exact denotes => exact .exact denotes
      | clamped denotes houtside =>
        cases t with
        | integer => exact absurd (hn rfl) (WholeType.not_holds_clamped _)
        | long => exact absurd ⟨rfl, _, _, rfl, denotes, houtside⟩ h

/-- A conversion to a whole number is exact or fails, unless it is of a double beyond the long
integers to one of these; then it gives the nearest end of their range. -/
theorem convert_exact_or_fails_iff (heap : BundleHeap) {v : Value} (hv : v ≠ .null) (t : WholeType)
    {name : String} (hname : t.type.Names name) :
    (v.ExactOrFails (v.convert heap name) ↔ ¬t.Overflows v) ∧
      ∀ q, v.Denotes q →
        (t.Holds (towardZero q) → v.convert heap name = .ok (.int (towardZero q))) ∧
        (t.Overflows v →
          v.convert heap name = .ok (.int (if q < 0 then int64Min else int64Max))) := by
  refine ⟨⟨?_, fun h => exactOrFails_of_not_overflows heap hv h hname⟩, fun q denotes =>
    ⟨fun hq => convert_of_holds denotes hq hname heap,
      fun h => convert_of_overflows denotes h hname heap⟩⟩
  intro hexact h
  obtain ⟨x, q, rfl, denotes, houtside⟩ := h.2
  rw [convert_of_overflows denotes h hname heap] at hexact
  generalize hn : (if q < 0 then int64Min else int64Max) = n at hexact
  cases hexact with
  | exact denotes' =>
    rw [← denotes.float_unique denotes'] at hn
    rw [h.1, ← hn] at houtside
    exact houtside (WholeType.holds_clamped q)

theorem convert_whole_of_negative_half :
    (Value.float (.finite true 7 (-1))).convert [] "java.lang.Integer" = .ok (.int (-3)) := by
  have denotes := Value.Denotes.float true 7 (-1)
  have hvalue : towardZero (signed true ((7 : ℕ) * 2 ^ (-1 : ℤ))) = -3 := by
    rw [towardZero, if_neg (by norm_num [signed]), Int.ceil_eq_iff]
    norm_num [signed]
  have hname : WholeType.integer.type.Names "java.lang.Integer" :=
    .qualified "java.lang".toList (s := "Integer".toList) (by decide) rfl
  have hholds : WholeType.integer.Holds (-3) := ⟨by decide, by decide⟩
  have h := ((convert_exact_or_fails_iff [] (by simp) .integer hname).2 _ denotes).1
  rw [hvalue] at h
  exact h hholds

/-- Ten to the nineteenth is beyond the long integers, and is not turned down. -/
theorem convert_not_exact_or_fails :
    ¬(Value.float (.finite false 4882812500000000 11)).ExactOrFails
      ((Value.float (.finite false 4882812500000000 11)).convert [] "Long") := by
  have hresult : (Value.float (.finite false 4882812500000000 11)).convert [] "Long" =
      .ok (.int 9223372036854775807) := rfl
  have hvalue : towardZero (signed false ((4882812500000000 : ℕ) * 2 ^ (11 : ℤ))) =
      10000000000000000000 := by
    rw [show signed false ((4882812500000000 : ℕ) * 2 ^ (11 : ℤ)) =
      ((10000000000000000000 : ℤ) : ℚ) by norm_num [signed], towardZero_intCast]
  rw [hresult]
  generalize hn : (9223372036854775807 : ℤ) = n
  intro hexact
  cases hexact with
  | exact denotes =>
    rw [← (Denotes.float false 4882812500000000 11).float_unique denotes, hvalue] at hn
    exact absurd hn (by decide)

end Value

end ScreenActions
