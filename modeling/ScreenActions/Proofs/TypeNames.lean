import ScreenActions.Conversion
import ScreenActions.Proofs.TextParts

/-!
Conversions by the name of a type. The name may have a qualifier and blanks around it; the type that
it names and the value decide what the conversion gives.
-/

namespace ScreenActions

open Text

namespace FieldType

/-- How a type may be named: by its name, with blanks around it or without, alone or after a
qualifier that ends with a point. -/
inductive Names (t : FieldType) : String → Prop
  | short {s : List Char} (hpoint : '.' ∉ s) (hname : String.ofList (trim s) = t.name) :
      Names t (String.ofList s)
  | qualified (qualifier : List Char) {s : List Char} (hpoint : '.' ∉ s)
      (hname : String.ofList (trim s) = t.name) :
      Names t (String.ofList (qualifier ++ '.' :: s))

/-- The last part of a qualified name, without the blanks around it. -/
inductive ShortName : String → String → Prop
  | alone {s : List Char} (hpoint : '.' ∉ s) :
      ShortName (String.ofList s) (String.ofList (trim s))
  | qualified (qualifier : List Char) {s : List Char} (hpoint : '.' ∉ s) :
      ShortName (String.ofList (qualifier ++ '.' :: s)) (String.ofList (trim s))

theorem exists_shortName (name : String) : ∃ short, ShortName name short := by
  rw [← String.ofList_toList (s := name)]
  by_cases hpoint : '.' ∈ name.toList
  · obtain ⟨qualifier, s, hname, hs⟩ := exists_last_of_mem hpoint
    rw [hname]
    exact ⟨_, .qualified qualifier hs⟩
  · exact ⟨_, .alone hpoint⟩

theorem ShortName.ofQualified?_eq {name short : String} (h : ShortName name short) :
    ofQualified? name = ofName? short := by
  cases h with
  | alone hpoint => simp only [ofQualified?, String.toList_ofList, cutLast_of_not_mem hpoint]
  | qualified qualifier hpoint =>
    simp only [ofQualified?, String.toList_ofList, cutLast_append hpoint]

/-- The names of a type; the type of texts has two. -/
def aliases : FieldType → List String
  | .text => ["String", "PlainString"]
  | t => [t.name]

theorem ofName?_eq_some_iff {short : String} {t : FieldType} :
    ofName? short = some t ↔ short ∈ t.aliases := by
  constructor
  · intro h
    unfold ofName? at h
    split at h <;> cases h <;> simp [aliases, name]
  · intro h
    cases t <;> simp only [aliases, name, List.mem_cons, List.not_mem_nil, or_false] at h
    case text => rcases h with rfl | rfl <;> rfl
    all_goals rw [h]; rfl

/-- A name of the type, qualified or not. -/
def Called (t : FieldType) (name : String) : Prop := ∃ short ∈ t.aliases, ShortName name short

theorem ofQualified?_eq_some_iff {name : String} {t : FieldType} :
    ofQualified? name = some t ↔ t.Called name := by
  constructor
  · intro h
    obtain ⟨short, hshort⟩ := exists_shortName name
    rw [hshort.ofQualified?_eq] at h
    exact ⟨short, ofName?_eq_some_iff.mp h, hshort⟩
  · rintro ⟨short, hmem, hshort⟩
    rw [hshort.ofQualified?_eq]
    exact ofName?_eq_some_iff.mpr hmem

theorem Names.called {t : FieldType} {name : String} (h : t.Names name) : t.Called name := by
  refine ⟨t.name, by cases t <;> simp [aliases, FieldType.name], ?_⟩
  cases h with
  | short hpoint hname => exact hname ▸ .alone hpoint
  | qualified qualifier hpoint hname => exact hname ▸ .qualified qualifier hpoint

theorem Names.ofQualified? {t : FieldType} {name : String} (h : t.Names name) :
    ofQualified? name = some t :=
  ofQualified?_eq_some_iff.mpr h.called

/-- The type has no value for a blank text. -/
def dropsBlanks (t : FieldType) : Bool := t != .text && t != .object

end FieldType

namespace Value

theorem isBlankValue_iff {v : Value} :
    Conversion.isBlankValue v = true ↔ ∃ s, v = .text s ∧ ∀ c ∈ s.toList, isBlank c = true := by
  cases v <;> simp [Conversion.isBlankValue, isBlankText, isAllBlank]

theorem isNull_eq_false {v : Value} (h : v ≠ .null) : v.isNull = false :=
  Bool.eq_false_iff.mpr (mt isNull_iff.mp h)

/-- What comes of a value that is not null, in a type. -/
theorem convert_of_type (heap : BundleHeap) {v : Value} (hv : v ≠ .null) {t : FieldType}
    {name : String} (hname : FieldType.ofQualified? name = some t) :
    v.convert heap name =
      if t.dropsBlanks && Conversion.isBlankValue v then .ok .null
      else (Conversion.to? heap v t).elim
        (.error (.invalid v.typeName t.name (v.display heap))) .ok := by
  have hdrops : (some t != some .text && some t != some .object) = t.dropsBlanks := by
    cases t <;> rfl
  rw [convert, hname, isNull_eq_false hv]
  simp only [hdrops, Bool.false_eq_true, if_false]
  cases Conversion.to? heap v t <;> rfl

theorem convert_of_no_type (heap : BundleHeap) {v : Value} (hv : v ≠ .null) {name : String}
    (hname : FieldType.ofQualified? name = none) :
    v.convert heap name =
      if Conversion.isBlankValue v then .ok .null else .error (.unsupported name) := by
  rw [convert, hname, isNull_eq_false hv]
  rfl

/-- How a value comes of a conversion. -/
inductive Converts (heap : BundleHeap) (v : Value) (name : String) : Value → Prop
  | null (hv : v = .null) : Converts heap v name .null
  | blank (hblank : Conversion.isBlankValue v = true)
      (hname : ∀ t, FieldType.ofQualified? name = some t → t.dropsBlanks = true) :
      Converts heap v name .null
  | typed {t : FieldType} {w : Value} (hv : v ≠ .null)
      (hname : FieldType.ofQualified? name = some t)
      (hblank : (t.dropsBlanks && Conversion.isBlankValue v) = false)
      (hto : Conversion.to? heap v t = some w) : Converts heap v name w

theorem converts_of_convert_eq_ok {heap : BundleHeap} {v w : Value} {name : String}
    (h : v.convert heap name = .ok w) : v.Converts heap name w := by
  by_cases hv : v = .null
  · obtain rfl := hv
    cases h
    exact .null rfl
  cases hname : FieldType.ofQualified? name with
  | none =>
    rw [convert_of_no_type heap hv hname] at h
    split at h
    · next hblank =>
      cases h
      exact .blank hblank fun t ht => nomatch hname.symm.trans ht
    · cases h
  | some t =>
    rw [convert_of_type heap hv hname] at h
    split at h
    · next hblank =>
      cases h
      obtain ⟨hdrops, hblank⟩ := Bool.and_eq_true_iff.mp hblank
      exact .blank hblank fun t' ht' => Option.some.inj (hname.symm.trans ht') ▸ hdrops
    · next hblank =>
      cases hto : Conversion.to? heap v t with
      | none => rw [hto] at h; cases h
      | some w' =>
        rw [hto] at h
        cases h
        exact .typed hv hname (Bool.eq_false_iff.mpr hblank) hto

theorem Converts.convert_eq_ok {heap : BundleHeap} {v w : Value} {name : String}
    (h : v.Converts heap name w) : v.convert heap name = .ok w := by
  cases h with
  | null hv => rw [hv]; rfl
  | blank hblank hname =>
    have hv : v ≠ .null := by
      rintro rfl
      cases hblank
    cases htype : FieldType.ofQualified? name with
    | none => rw [convert_of_no_type heap hv htype, if_pos hblank]
    | some t =>
      rw [convert_of_type heap hv htype, hname t htype, hblank]
      rfl
  | typed hv hname hblank hto =>
    rw [convert_of_type heap hv hname, hblank, hto]
    rfl

theorem convert_text_eq_ok {heap : BundleHeap} {s : String} {w : Value} {t : FieldType}
    {name : String} (hname : FieldType.ofQualified? name = some t)
    (hs : isAllBlank s.toList = false) (hto : Conversion.to? heap (.text s) t = some w) :
    (Value.text s).convert heap name = .ok w := by
  have hblank : (t.dropsBlanks && Conversion.isBlankValue (.text s)) = false := by
    rw [Conversion.isBlankValue, isBlankText, hs, Bool.and_false]
  exact (Converts.typed (by simp) hname hblank hto).convert_eq_ok

end Value

end ScreenActions
