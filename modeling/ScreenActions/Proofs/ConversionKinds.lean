import ScreenActions.Proofs.WholeConversion

/-!
Kinds of converted values. What a conversion gives is a value of the type that is named, and such a
value is left as it is by another conversion to that type.
-/

namespace ScreenActions

open Number Text

theorem Binary64.exceedsSingle_finite (negative : Bool) (m : ℕ) (e : ℤ) :
    exceedsSingle (.finite negative m e) = true ↔ (singleMax : ℚ) < m * 2 ^ e := by
  have hpos : (0 : ℚ) < (magnitude m e).2 := by
    unfold magnitude scaled twos
    split <;> simp
  rw [← magnitude_eq, lt_div_iff₀ hpos]
  simp only [exceedsSingle, decide_eq_true_eq]
  exact_mod_cast Iff.rfl

theorem abs_signed {q : ℚ} (h : 0 ≤ q) (negative : Bool) : |signed negative q| = q := by
  cases negative <;> simp [signed, abs_of_nonneg h]

/-- The values of a type that a value `v` may become: doubles in the range of single precision for
that one, integers in the range of the type or `v` itself, and `v` itself for objects. -/
inductive FieldType.Gives (v : Value) : FieldType → Value → Prop
  | text (s : String) : Gives v .text (.text s)
  | object : Gives v .object v
  | boolean (b : Bool) : Gives v .boolean (.bool b)
  | integer {n : ℤ} (hn : WholeType.integer.Holds n) : Gives v .integer (.int n)
  | long {n : ℤ} (hn : Value.int n = v ∨ WholeType.long.Holds n) : Gives v .long (.int n)
  | single {x : Binary64} (hx : ∀ q, (Value.float x).Denotes q → |q| ≤ Binary64.singleMax) :
      Gives v .single (.float x)
  | double (x : Binary64) : Gives v .double (.float x)
  | decimal (d : Decimal) : Gives v .decimal (.decimal d)
  | date (d : Date) : Gives v .date (.date d)
  | time (t : Time) : Gives v .time (.time t)
  | timestamp (t : Timestamp) : Gives v .timestamp (.timestamp t)
  | list (items : List Value) : Gives v .list (.list items)
  | map (entries : ValueMap) : Gives v .map (.map entries)

namespace Conversion

variable {heap : BundleHeap} {v w : Value}

/-- A double is turned down exactly if it denotes a number out of the range of single precision. -/
theorem single_range_iff {x : Binary64} : (x.isFinite && x.exceedsSingle) = false ↔
    ∀ q, (Value.float x).Denotes q → |q| ≤ Binary64.singleMax := by
  cases x with
  | nan => exact iff_of_true rfl fun q denotes => nomatch denotes
  | infinite negative => exact iff_of_true rfl fun q denotes => nomatch denotes
  | finite negative m e =>
    have habs : |signed negative (m * 2 ^ e)| = (m * 2 ^ e : ℚ) :=
      abs_signed (mul_nonneg (Nat.cast_nonneg m) (zpow_nonneg zero_le_two e)) negative
    rw [Binary64.isFinite, Bool.true_and, Bool.eq_false_iff, Ne, Binary64.exceedsSingle_finite,
      not_lt]
    constructor
    · intro h q denotes
      cases denotes
      rw [habs]
      exact h
    · intro h
      have hq := h _ (.float negative m e)
      rwa [habs] at hq

theorem long_holds_of_whole? {n : ℤ} (h : whole? v = some n) :
    Value.int n = v ∨ WholeType.long.Holds n := by
  cases v with
  | int m =>
    cases h
    exact .inl rfl
  | float x =>
    obtain ⟨m, -, rfl⟩ := Option.map_eq_some_iff.mp h
    exact .inr ⟨le_max_left _ _, max_le (by decide) (min_le_left _ _)⟩
  | decimal d =>
    obtain ⟨hrange, hn⟩ := Option.ite_none_right_eq_some.mp h
    exact .inr (Option.some.inj hn ▸ hrange)
  | text s => exact .inr (integer?_eq_some_iff.mp h).2
  | _ => cases h

/-! ### Each reader gives values of its type -/

theorem exists_of_map {α : Type} {o : Option α} {f : α → Value} (h : o.map f = some w) :
    ∃ a, f a = w :=
  (Option.map_eq_some_iff.mp h).imp fun _ ha => ha.2

theorem exists_of_boolean? (h : boolean? v = some w) : ∃ b, .bool b = w := by
  cases v with
  | bool b => exact ⟨b, Option.some.inj h⟩
  | int n => exact ⟨n != 0, Option.some.inj h⟩
  | text s =>
    simp only [boolean?] at h
    split at h
    · exact ⟨true, Option.some.inj h⟩
    · obtain ⟨-, h⟩ := Option.ite_none_right_eq_some.mp h
      exact ⟨false, Option.some.inj h⟩
  | _ => cases h

theorem exists_of_decimal? (h : decimal? v = some w) : ∃ d, .decimal d = w := by
  cases v with
  | decimal d => exact ⟨d, Option.some.inj h⟩
  | int n => exact exists_of_map h
  | float x => exact exists_of_map h
  | text s => exact exists_of_map h
  | _ => cases h

theorem exists_of_date? (h : date? v = some w) : ∃ d, .date d = w := by
  cases v with
  | date d => exact ⟨d, Option.some.inj h⟩
  | timestamp t => exact ⟨t.date, Option.some.inj h⟩
  | text s => exact exists_of_map h
  | _ => cases h

theorem exists_of_time? (h : time? v = some w) : ∃ t, .time t = w := by
  cases v with
  | time t => exact ⟨t, Option.some.inj h⟩
  | timestamp t => exact ⟨t.time, Option.some.inj h⟩
  | text s => exact exists_of_map h
  | _ => cases h

theorem exists_of_timestamp? (h : timestamp? v = some w) : ∃ t, .timestamp t = w := by
  cases v with
  | timestamp t => exact ⟨t, Option.some.inj h⟩
  | date d => exact ⟨Timestamp.atMidnight d, Option.some.inj h⟩
  | int n => exact exists_of_map h
  | text s => exact exists_of_map h
  | _ => cases h

theorem exists_of_list? (h : list? v = some w) : ∃ items, .list items = w := by
  cases v with
  | list items => exact ⟨items, Option.some.inj h⟩
  | text s => exact ⟨listItems s.toList, Option.some.inj h⟩
  | _ => cases h

theorem exists_of_map? (h : map? v = some w) : ∃ entries, .map entries = w := by
  cases v with
  | map entries => exact ⟨entries, Option.some.inj h⟩
  | entity name fields => exact ⟨fields, Option.some.inj h⟩
  | text s => exact exists_of_map h
  | _ => cases h

theorem exists_of_single? (h : single? v = some w) : ∃ x, .float x = w ∧
    ∀ q, (Value.float x).Denotes q → |q| ≤ Binary64.singleMax := by
  obtain ⟨x, -, hx⟩ := Option.bind_eq_some_iff.mp h
  obtain ⟨hrange, hx⟩ := Option.ite_none_left_eq_some.mp hx
  exact ⟨x, Option.some.inj hx, single_range_iff.mp (Bool.eq_false_iff.mpr hrange)⟩

theorem gives_of_to? {t : FieldType} (h : to? heap v t = some w) : t.Gives v w := by
  cases t with
  | text => exact Option.some.inj h ▸ .text _
  | object => exact Option.some.inj h ▸ .object
  | boolean =>
    obtain ⟨b, rfl⟩ := exists_of_boolean? h
    exact .boolean b
  | integer =>
    obtain ⟨n, -, hn, rfl⟩ := (to?_whole_iff (t := .integer)).mp h
    exact .integer (hn rfl)
  | long =>
    obtain ⟨n, hwhole, -, rfl⟩ := (to?_whole_iff (t := .long)).mp h
    exact .long (long_holds_of_whole? hwhole)
  | single =>
    obtain ⟨x, rfl, hx⟩ := exists_of_single? h
    exact .single hx
  | double =>
    obtain ⟨x, rfl⟩ := exists_of_map h
    exact .double x
  | decimal =>
    obtain ⟨d, rfl⟩ := exists_of_decimal? h
    exact .decimal d
  | date =>
    obtain ⟨d, rfl⟩ := exists_of_date? h
    exact .date d
  | time =>
    obtain ⟨t, rfl⟩ := exists_of_time? h
    exact .time t
  | timestamp =>
    obtain ⟨t, rfl⟩ := exists_of_timestamp? h
    exact .timestamp t
  | list =>
    obtain ⟨items, rfl⟩ := exists_of_list? h
    exact .list items
  | map =>
    obtain ⟨entries, rfl⟩ := exists_of_map? h
    exact .map entries

/-- A value of the type is left as it is. -/
theorem to?_of_gives {t : FieldType} (h : t.Gives v v) : to? heap v t = some v := by
  cases h with
  | text s => rfl
  | integer hn => exact to?_whole_iff.mpr ⟨_, rfl, fun _ => hn, rfl⟩
  | single hx => exact if_neg (Bool.eq_false_iff.mp (single_range_iff.mpr hx))
  | _ => rfl

end Conversion

namespace FieldType.Gives

variable {v w : Value} {t : FieldType}

theorem self (h : t.Gives v w) : t.Gives w w := by
  cases h with
  | integer hn => exact .integer hn
  | long hn => exact .long (.inl rfl)
  | single hx => exact .single hx
  | _ => constructor

/-- Only objects may be null. -/
theorem eq_null (h : t.Gives v .null) : v = .null := by
  cases h
  rfl

theorem keeps_blank (h : t.Gives v v) : (t.dropsBlanks && Conversion.isBlankValue v) = false := by
  cases h <;> rfl

end FieldType.Gives

namespace Value

theorem convert_eq_self (heap : BundleHeap) {v : Value} {t : FieldType} {name : String}
    (hname : t.Called name) (h : t.Gives v v) : v.convert heap name = .ok v := by
  by_cases hv : v = .null
  · obtain rfl := hv
    rfl
  · exact (Converts.typed hv (FieldType.ofQualified?_eq_some_iff.mpr hname) h.keeps_blank
      (Conversion.to?_of_gives h)).convert_eq_ok

/-- What a conversion gives is null, for null or a blank text, or a value of the named type; it
converts to itself, and so does each value that is of the type already. -/
theorem convert_sound_and_idempotent (heap : BundleHeap) (v : Value) (name : String) :
    (∀ w, v.convert heap name = .ok w →
      w.convert heap name = .ok w ∧
      (w = .null → v = .null ∨ ∃ s, v = .text s ∧ ∀ c ∈ s.toList, isBlank c = true) ∧
      (w ≠ .null → ∃ t : FieldType, t.Called name ∧ t.Gives v w)) ∧
    ∀ t : FieldType, t.Called name → t.Gives v v → v.convert heap name = .ok v := by
  refine ⟨fun w h => ?_, fun t hname hv => convert_eq_self heap hname hv⟩
  cases converts_of_convert_eq_ok h with
  | null hv => exact ⟨rfl, fun _ => .inl hv, fun hw => absurd rfl hw⟩
  | blank hblank => exact ⟨rfl, fun _ => .inr (isBlankValue_iff.mp hblank), fun hw => absurd rfl hw⟩
  | typed hv hname hblank hto =>
    have hname := FieldType.ofQualified?_eq_some_iff.mp hname
    have hgives := Conversion.gives_of_to? hto
    refine ⟨convert_eq_self heap hname hgives.self, ?_, fun _ => ⟨_, hname, hgives⟩⟩
    rintro rfl
    exact absurd hgives.eq_null hv

theorem convert_sound_and_idempotent_of_text :
    (Value.text " 42 ").convert [] "java.lang.Integer" = .ok (.int 42) ∧
      (Value.int 42).convert [] "java.lang.Integer" = .ok (.int 42) ∧
      (∃ t : FieldType, t.Called "java.lang.Integer" ∧ t.Gives (.text " 42 ") (.int 42)) ∧
      (Value.text " ").convert [] "PlainString" = .ok (.text " ") := by
  have h : (Value.text " 42 ").convert [] "java.lang.Integer" = .ok (.int 42) := rfl
  obtain ⟨hself, -, hkind⟩ := (convert_sound_and_idempotent [] _ _).1 _ h
  have hplain : FieldType.text.Called "PlainString" :=
    ⟨"PlainString", by decide, .alone (s := "PlainString".toList) (by decide)⟩
  exact ⟨h, hself, hkind (by simp),
    (convert_sound_and_idempotent [] _ _).2 .text hplain (.text " ")⟩

end Value

end ScreenActions
