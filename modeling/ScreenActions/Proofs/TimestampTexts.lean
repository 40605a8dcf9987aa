import Mathlib.Data.List.Basic
import Mathlib.Data.List.TakeWhile
import ScreenActions.Proofs.Numerals
import ScreenActions.Proofs.TypeNames

/-!
Timestamps and their display texts. Every field of a timestamp is read back from its text but the
fraction of a leap second: its nanoseconds are displayed together with the second that they are
above, and are read as a fraction of one.
-/

namespace ScreenActions

open Number Text

/-! ### Fields -/

/-- Digits are read up to the width, or to what is no digit. -/
theorem scanDigits_append {width n : Nat} {s rest : List Char} (h : SpellsNatural s n)
    (hwidth : s.length ≤ width)
    (hrest : s.length = width ∨ ∀ c ∈ rest.head?, isDigit c = false) :
    scanDigits width (s ++ rest) = some (n, rest) := by
  have hdigits : ((s ++ rest).take width).takeWhile isDigit = s := by
    rw [List.take_append, List.take_of_length_le hwidth]
    refine h.takeWhile_append ?_
    rcases hrest with hlength | hrest
    · simp [hlength]
    · intro c hc
      rw [List.head?_take] at hc
      exact hrest c (Option.ite_none_left_eq_some.mp hc).2
  have hne : s.isEmpty = false := by simpa using h.ne_nil
  simp only [scanDigits, hdigits, hne, Bool.false_eq_true, if_false, digitsValue_eq, h.value,
    List.drop_left]

theorem scanField_paddedText {low high n : Nat} (hlow : low ≤ n) (hhigh : n ≤ high)
    (hhundred : n < 100) (rest : List Char) :
    scanField low high (paddedText 2 n ++ rest) = some (n, rest) := by
  have hspells := spellsNatural_paddedText 2 n
  have hlength : (paddedText 2 n).length = 2 := length_paddedText (by decide) hhundred
  rw [scanField, hspells.trimStart_append,
    scanDigits_append hspells (Nat.le_of_eq hlength) (.inl hlength), Option.bind_some]
  exact if_pos ⟨hlow, hhigh⟩

theorem scanYear_minus (r : List Char) : scanYear ('-' :: r) =
    (scanDigits r.length r).map fun (n, rest) => (-(n : Int), rest) := rfl

theorem scanYear_plus (r : List Char) : scanYear ('+' :: r) =
    (scanDigits r.length r).map fun (n, rest) => ((n : Int), rest) := rfl

theorem scanYear_of_digits {s rest : List Char} {n : Nat} (h : SpellsNatural s n) :
    scanYear (s ++ rest) =
      (scanDigits 4 (s ++ rest)).map fun (n, rest) => ((n : Int), rest) := by
  have hsign : ∀ c, isDigit c = false → ∀ r, s ++ rest ≠ c :: r := by
    intro c hc r hr
    exact absurd (h.head rest c (by rw [hr]; rfl)) (by simp [hc])
  unfold scanYear
  rw [h.trimStart_append]
  split
  · next r hr => exact absurd hr (hsign '-' rfl r)
  · next r hr => exact absurd hr (hsign '+' rfl r)
  · rfl

/-- A year without a sign has four digits, and one with a sign ends where no digit follows. -/
theorem scanYear_yearText (year : Int) {rest : List Char}
    (hrest : ∀ c ∈ rest.head?, isDigit c = false) :
    scanYear (yearText year ++ rest) = some (year, rest) := by
  unfold yearText
  split
  · next hyear =>
    obtain ⟨hlow, hhigh⟩ : 0 ≤ year ∧ year ≤ 9999 := by simpa using hyear
    have hspells := spellsNatural_paddedText 4 year.toNat
    have hlength : (paddedText 4 year.toNat).length = 4 :=
      length_paddedText (by decide) (by omega)
    rw [scanYear_of_digits hspells,
      scanDigits_append hspells (Nat.le_of_eq hlength) (.inl hlength)]
    simp only [Option.map_some, Int.toNat_of_nonneg hlow]
  · next hyear =>
    have hspells := spellsNatural_paddedText 4 year.natAbs
    have hscan : scanDigits (paddedText 4 year.natAbs ++ rest).length
        (paddedText 4 year.natAbs ++ rest) = some (year.natAbs, rest) :=
      scanDigits_append hspells (by simp) (.inr hrest)
    by_cases hneg : year < 0
    · have hvalue : -(year.natAbs : Int) = year := by omega
      rw [if_pos hneg, List.cons_append, scanYear_minus, hscan]
      simp only [Option.map_some, hvalue]
    · have hvalue : (year.natAbs : Int) = year := by omega
      rw [if_neg hneg, List.cons_append, scanYear_plus, hscan]
      simp only [Option.map_some, hvalue]

/-! ### Fractions of a second -/

/-- The zeros that are dropped at the end of a row of digits. -/
theorem exists_zeros (s : List Char) :
    ∃ k, s = (s.reverse.dropWhile (· == '0')).reverse ++ List.replicate k '0' := by
  refine ⟨(s.reverse.takeWhile (· == '0')).length, ?_⟩
  have hzeros : s.reverse.takeWhile (· == '0') =
      List.replicate (s.reverse.takeWhile (· == '0')).length '0' :=
    List.eq_replicate_iff.mpr ⟨rfl, fun c hc => by simpa using List.mem_takeWhile_imp hc⟩
  have hsplit := congrArg List.reverse
    (List.takeWhile_append_dropWhile (p := (· == '0')) (l := s.reverse))
  rw [List.reverse_append, List.reverse_reverse, hzeros, List.reverse_replicate] at hsplit
  exact hsplit.symm

/-- The first nine digits count, also without the zeros at their end. -/
theorem scanFraction_of_zeros {s : List Char} {n k : Nat} (h : SpellsNatural s n)
    (hnine : 9 ≤ s.length + k) :
    scanFraction s =
      some (Nat.ofDigitChars 10 ((s ++ List.replicate k '0').take 9) 0, []) := by
  have hs : ∀ c ∈ s, isDigit c = true := fun c hc => (isDigit_eq c).trans (h.isDigit_of_mem c hc)
  have hdigits : (s.take 9).takeWhile isDigit = s.take 9 :=
    List.takeWhile_eq_self_iff.mpr fun c hc => hs c (List.mem_of_mem_take hc)
  have hrest : (s.drop (s.take 9).length).dropWhile isDigit = [] :=
    List.dropWhile_eq_nil_iff.mpr fun c hc => hs c (List.mem_of_mem_drop hc)
  have hne : (s.take 9).isEmpty = false := by simpa using h.ne_nil
  have hzeros : (s ++ List.replicate k '0').take 9 =
      s.take 9 ++ List.replicate (9 - (s.take 9).length) '0' := by
    rw [List.take_append, List.take_replicate, List.length_take]
    congr 2
    omega
  simp only [scanFraction, hdigits, hne, hrest, Bool.false_eq_true, if_false, digitsValue_eq]
  rw [hzeros, Nat.ofDigitChars_append, Nat.ofDigitChars_replicate_zero, Nat.mul_comm]
  rfl

theorem digit_le_nine {c : Char} (h : c.isDigit = true) : c.toNat - '0'.toNat ≤ 9 := by
  have hdigit : '0'.toNat ≤ c.toNat ∧ c.toNat ≤ '9'.toNat := by
    simpa [Char.isDigit, UInt32.le_iff_toNat_le] using h
  have hlow : '0'.toNat = 48 := rfl
  have hhigh : '9'.toNat = 57 := rfl
  omega

/-- A row of digits without the last one. -/
theorem ofDigitChars_dropLast {s : List Char} {c : Char} {n : Nat}
    (h : SpellsNatural (s ++ [c]) n) : Nat.ofDigitChars 10 s 0 = n / 10 := by
  have hc := digit_le_nine (h.isDigit_of_mem c (by simp))
  have hn := h.value
  rw [Nat.ofDigitChars_append, Nat.ofDigitChars_cons, Nat.ofDigitChars_nil] at hn
  omega

/-- What is read of the nanoseconds that are displayed: above a second they have ten digits, of
which nine count. -/
def readFraction (nanos : Nat) : Nat := if nanos < 1000000000 then nanos else nanos / 10

theorem ofDigitChars_take_paddedText {nanos : Nat} (h : nanos < 2000000000) :
    9 ≤ (paddedText 9 nanos).length ∧
      Nat.ofDigitChars 10 ((paddedText 9 nanos).take 9) 0 = readFraction nanos := by
  have hspells := spellsNatural_paddedText 9 nanos
  unfold readFraction
  split
  · next hsmall =>
    have hlength : (paddedText 9 nanos).length = 9 := length_paddedText (by decide) hsmall
    rw [List.take_of_length_le (Nat.le_of_eq hlength), hspells.value, hlength]
    exact ⟨Nat.le_refl 9, rfl⟩
  · next hlarge =>
    have hlength : (naturalText nanos).length = 10 :=
      length_naturalText (k := 9) (by decide) (by omega) (by omega)
    have hpadded : paddedText 9 nanos = naturalText nanos := by simp [paddedText, hlength]
    rw [hpadded] at hspells ⊢
    have hsplit := List.take_append_getLast (naturalText nanos) hspells.ne_nil
    rw [hlength] at hsplit ⊢
    exact ⟨by decide, ofDigitChars_dropLast (hsplit.symm ▸ hspells)⟩

theorem scanFraction_fractionText {nanos : Nat} (h : nanos < 2000000000) :
    scanFraction (fractionText nanos) = some (readFraction nanos, []) := by
  unfold fractionText
  split
  · next hzero =>
    obtain rfl := hzero
    rfl
  · next hne =>
    obtain ⟨hlength, hvalue⟩ := ofDigitChars_take_paddedText h
    have hspells := spellsNatural_paddedText 9 nanos
    obtain ⟨k, hk⟩ := exists_zeros (paddedText 9 nanos)
    -- The zeros that are left out come back when the digits are scaled to nanoseconds.
    generalize ((paddedText 9 nanos).reverse.dropWhile (· == '0')).reverse = s at hk ⊢
    rw [hk] at hlength hvalue hspells
    have hs : s ≠ [] := by
      rintro rfl
      have hn := hspells.value
      rw [List.nil_append, Nat.ofDigitChars_replicate_zero, Nat.mul_zero] at hn
      exact hne hn.symm
    have hdigits : SpellsNatural s (Nat.ofDigitChars 10 s 0) :=
      ⟨hs, fun c hc => hspells.isDigit_of_mem c (List.mem_append_left _ hc), rfl⟩
    rw [scanFraction_of_zeros hdigits (by simpa using hlength), hvalue]

/-! ### Patterns -/

section Patterns

variable {items : List PatternItem} {f : Fields} {rest : List Char}

theorem scanPattern_cons (item : PatternItem) (s : List Char) :
    scanPattern (item :: items) f s =
      (item.scan f s).bind fun (f, r) => scanPattern items f r := rfl

theorem Date.day_le (d : Date) : d.day ≤ 31 := by
  have h : daysInMonth d.year d.month ≤ 31 := by
    unfold daysInMonth
    split_ifs <;> decide
  exact d.day_mem.2.trans h

/-- The fields of a date are read back before any rest. -/
theorem scanPattern_date (d : Date) :
    scanPattern (Pattern.date ++ items) f (d.text ++ rest) =
      scanPattern items { f with year := d.year, month := d.month, day := d.day } rest := by
  have htext : d.text ++ rest = yearText d.year ++ '-' ::
      (paddedText 2 d.month ++ '-' :: (paddedText 2 d.day ++ rest)) := by
    simp [Date.text]
  have hyear : ∀ r, scanYear (yearText d.year ++ '-' :: r) = some (d.year, '-' :: r) := by
    intro r
    refine scanYear_yearText d.year fun c hc => ?_
    obtain rfl : '-' = c := by simpa using hc
    rfl
  have hday := d.day_le
  have hmonth := d.month_mem.2
  have hscanMonth : ∀ r, scanField 1 12 (paddedText 2 d.month ++ r) = some (d.month, r) :=
    scanField_paddedText d.month_mem.1 hmonth (by omega)
  have hscanDay : ∀ r, scanField 1 31 (paddedText 2 d.day ++ r) = some (d.day, r) :=
    scanField_paddedText d.day_mem.1 hday (by omega)
  rw [htext]
  simp only [Pattern.date, List.cons_append, List.nil_append, scanPattern_cons, PatternItem.scan,
    hyear, hscanMonth, hscanDay, Option.map_some, Option.bind_some, if_true]

theorem scanPattern_seconds (t : Time) :
    scanPattern Pattern.seconds f (t.text ++ '.' :: fractionText t.nanos) =
      some ({ f with
        hour := t.hour, minute := t.minute, second := t.second,
        nanos := readFraction t.nanos }, []) := by
  have hseconds := t.seconds_lt
  have hnanos := t.nanos_lt
  have hhour : t.hour ≤ 23 := by unfold Time.hour; omega
  have hminute : t.minute ≤ 59 := by unfold Time.minute; omega
  have hsecond : t.second ≤ 60 := by unfold Time.second; have := t.leap; omega
  have hscanHour : ∀ r, scanField 0 23 (paddedText 2 t.hour ++ r) = some (t.hour, r) :=
    scanField_paddedText (Nat.zero_le _) hhour (by omega)
  have hscanMinute : ∀ r, scanField 0 59 (paddedText 2 t.minute ++ r) = some (t.minute, r) :=
    scanField_paddedText (Nat.zero_le _) hminute (by omega)
  have hscanSecond : ∀ r, scanField 0 60 (paddedText 2 t.second ++ r) = some (t.second, r) :=
    scanField_paddedText (Nat.zero_le _) hsecond (by omega)
  simp only [Time.text, Pattern.seconds, Pattern.minutes, List.append_assoc, List.cons_append,
    List.nil_append, scanPattern_cons, PatternItem.scan, hscanHour, hscanMinute, hscanSecond,
    scanFraction_fractionText hnanos, Option.map_some, Option.bind_some, if_true, scanPattern]

end Patterns

/-! ### Timestamps -/

theorem Date.make?_eq (d : Date) : Date.make? d.year d.month d.day = some d :=
  dif_pos ⟨d.year_ge, d.year_le, d.month_mem, d.day_mem⟩

theorem Time.make?_eq (t : Time) : Time.make? t.seconds t.nanos = some t :=
  dif_pos ⟨t.seconds_lt, t.nanos_lt, t.leap⟩

theorem Time.seconds_eq (t : Time) :
    3600 * t.hour + 60 * t.minute + t.seconds % 60 = t.seconds := by
  unfold hour minute
  omega

/-- The time of day that the text of one is read as. -/
def Time.reread (t : Time) : Time where
  seconds := t.seconds
  nanos := if t.nanos < 1000000000 then t.nanos else t.nanos / 10 + 1000000000
  seconds_lt := t.seconds_lt
  nanos_lt := by have := t.nanos_lt; split <;> omega
  leap h := t.leap (by split at h <;> omega)

/-- The point in time that the text of one is read as. The fraction of a leap second is displayed
together with the second that it is above, which is then read as its first digit. -/
def Timestamp.reread (t : Timestamp) : Timestamp := ⟨t.date, t.time.reread⟩

/-- Only one leap second has a fraction that its first nine digits give again. -/
theorem Timestamp.reread_eq_iff (t : Timestamp) :
    t.reread = t ↔ t.time.nanos < 1000000000 ∨ t.time.nanos = 1111111111 := by
  have hnanos : t.reread = t ↔ t.time.reread.nanos = t.time.nanos := by
    obtain ⟨d, t⟩ := t
    cases t
    simp [reread, Time.reread]
  rw [hnanos, Time.reread]
  dsimp only
  split <;> omega

theorem Time.time?_reread (t : Time) {f : Fields} (hhour : f.hour = t.hour)
    (hminute : f.minute = t.minute) (hsecond : f.second = t.second)
    (hnanos : f.nanos = readFraction t.nanos) : f.time? = some t.reread := by
  have hseconds := t.seconds_eq
  have hlt := t.nanos_lt
  have hmake := t.reread.make?_eq
  unfold Fields.time?
  rw [hhour, hminute, hsecond, hnanos]
  -- Second 60 is written in a leap second only, and is second 59 with nanoseconds above it.
  by_cases hleap : 1000000000 ≤ t.nanos
  · have h59 := t.leap hleap
    have h60 : t.second = 60 := by unfold second; omega
    simp only [reread, readFraction, if_neg (Nat.not_lt.mpr hleap)] at hmake ⊢
    simpa only [h60, beq_self_eq_true, if_true, ← h59, hseconds] using hmake
  · have hsecond : t.second = t.seconds % 60 := by unfold second; omega
    have hne : (t.seconds % 60 == 60) = false := beq_eq_false_iff_ne.mpr (by omega)
    simp only [reread, readFraction, if_pos (Nat.not_le.mp hleap)] at hmake ⊢
    simpa only [hsecond, hne, Bool.false_eq_true, if_false, hseconds, Nat.add_zero] using hmake

theorem Timestamp.text_eq (t : Timestamp) : t.text =
    t.date.text ++ ' ' :: (t.time.text ++ '.' :: fractionText t.time.nanos) := by
  simp [text]

theorem trimStart_time_text (t : Time) (rest : List Char) :
    trimStart (' ' :: (t.text ++ rest)) = t.text ++ rest := by
  have htext : t.text ++ rest = paddedText 2 t.hour ++ (':' :: (paddedText 2 t.minute ++ ':' ::
      (paddedText 2 t.second ++ rest))) := by
    simp [Time.text]
  rw [htext]
  exact (spellsNatural_paddedText 2 t.hour).trimStart_append _

/-- The first of the patterns reads the text of a timestamp. -/
theorem readPattern?_timestamp_text (t : Timestamp) :
    readPattern? (Pattern.date ++ .blanks :: Pattern.seconds) t.text =
      some ⟨t.date.year, t.date.month, t.date.day, t.time.hour, t.time.minute, t.time.second,
        readFraction t.time.nanos⟩ := by
  rw [readPattern?, t.text_eq, scanPattern_date, scanPattern_cons, PatternItem.scan,
    trimStart_time_text, Option.bind_some]
  dsimp only
  rw [scanPattern_seconds]
  rfl

theorem Timestamp.ofText?_text (t : Timestamp) : Timestamp.ofText? t.text = some t.reread := by
  have htime := t.time.time?_reread (f := ⟨t.date.year, t.date.month, t.date.day, t.time.hour,
    t.time.minute, t.time.second, readFraction t.time.nanos⟩) rfl rfl rfl rfl
  rw [ofText?, Pattern.timestamps, List.findSome?_cons, readPattern?_timestamp_text,
    Option.bind_some, Fields.timestamp?, Fields.date?, t.date.make?_eq, Option.bind_some, htime]
  rfl

/-! ### Conversion -/

theorem yearText_head (year : Int) (rest : List Char) :
    ∀ c ∈ (yearText year ++ rest).head?, isBlank c = false := by
  unfold yearText
  split
  · exact fun c hc => not_isBlank_of_isDigit ((spellsNatural_paddedText 4 _).head rest c hc)
  · intro c hc
    obtain rfl : (if year < 0 then '-' else '+') = c := by simpa using hc
    split <;> rfl

theorem isDigit_of_mem_fractionText {nanos : Nat} :
    ∀ c ∈ fractionText nanos, isDigit c = true := by
  intro c hc
  unfold fractionText at hc
  split at hc
  · obtain rfl := List.mem_singleton.mp hc
    rfl
  · rw [isDigit_eq]
    have hc := (List.dropWhile_suffix _).subset (List.mem_reverse.mp hc)
    exact (spellsNatural_paddedText 9 nanos).isDigit_of_mem c (List.mem_reverse.mp hc)

theorem Timestamp.trim_text (t : Timestamp) : trim t.text = t.text := by
  refine trim_eq_self ?_ fun c hc => ?_
  · rw [t.text_eq, Date.text, List.append_assoc, List.append_assoc]
    exact yearText_head t.date.year _
  · rw [text, List.getLast?_append_cons] at hc
    rcases List.mem_cons.mp (List.mem_of_getLast? hc) with rfl | hc
    · rfl
    · exact not_isBlank_of_isDigit (isDigit_of_mem_fractionText c hc)

theorem Timestamp.not_isAllBlank_text (t : Timestamp) : isAllBlank t.text = false :=
  List.all_eq_false.mpr ⟨'-', by simp [text, Date.text], by decide⟩

namespace Value

theorem convert_display_timestamp (heap : BundleHeap) (t : Timestamp) {name : String}
    (hname : FieldType.timestamp.Called name) :
    (text ((timestamp t).display heap)).convert heap name = .ok (.timestamp t.reread) := by
  have hchars : ((timestamp t).display heap).toList = t.text := String.toList_ofList
  refine convert_text_eq_ok (FieldType.ofQualified?_eq_some_iff.mpr hname) ?_ ?_
  · rw [hchars, t.not_isAllBlank_text]
  · rw [Conversion.to?, Conversion.timestamp?, hchars, t.trim_text, t.ofText?_text]
    rfl

/-- A timestamp survives its display text if it is not in a leap second. The fraction of a leap
second is displayed with the second in front, which counts as its first digit when it is read. -/
theorem convert_display_timestamp_eq_self_iff (heap : BundleHeap) (t : Timestamp) {name : String}
    (hname : FieldType.timestamp.Called name) :
    (text ((timestamp t).display heap)).convert heap name = .ok (.timestamp t.reread) ∧
      ((text ((timestamp t).display heap)).convert heap name = .ok (.timestamp t) ↔
        t.time.nanos < 1000000000 ∨ t.time.nanos = 1111111111) := by
  have h := convert_display_timestamp heap t hname
  refine ⟨h, ?_⟩
  rw [h, ← t.reread_eq_iff]
  simp

/-- The end of a year, with nanoseconds above its last second. -/
def lastOfYear (year : Int) (nanos : Nat) (hyear : -262143 ≤ year ∧ year ≤ 262142)
    (hnanos : nanos < 2000000000) : Timestamp where
  date := ⟨year, 12, 31, hyear.1, hyear.2, by decide, by simp [daysInMonth]⟩
  time := ⟨86399, nanos, by decide, hnanos, fun _ => by decide⟩

/-- A fraction of a second in a year before the first survives. -/
theorem convert_display_timestamp_year_minus_five :
    (text "-0005-12-31 23:59:59.000000001").convert [] "java.sql.Timestamp" =
      .ok (.timestamp (lastOfYear (-5) 1 (by decide) (by decide))) := by
  have htext : (timestamp (lastOfYear (-5) 1 (by decide) (by decide))).display [] =
      "-0005-12-31 23:59:59.000000001" := by decide
  have hname : FieldType.timestamp.Called "java.sql.Timestamp" :=
    ⟨"Timestamp", by decide, .qualified "java.sql".toList (s := "Timestamp".toList) (by decide)⟩
  rw [← htext]
  exact (convert_display_timestamp_eq_self_iff [] _ hname).2.mpr (.inl (by decide))

/-- Half a second into a leap second comes back as a fraction of fifteen hundredths. -/
theorem convert_display_leap_second_ne_self :
    (text ((timestamp (lastOfYear 2016 1500000000 (by decide) (by decide))).display [])).convert []
      "Timestamp" ≠ .ok (.timestamp (lastOfYear 2016 1500000000 (by decide) (by decide))) := by
  have h : (text ((timestamp (lastOfYear 2016 1500000000 (by decide) (by decide))).display
      [])).convert [] "Timestamp" =
        .ok (.timestamp (lastOfYear 2016 1150000000 (by decide) (by decide))) := rfl
  rw [h]
  simp [lastOfYear]

end Value

end ScreenActions
