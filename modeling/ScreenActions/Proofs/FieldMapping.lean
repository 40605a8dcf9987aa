import ScreenActions.Proofs.ActionGrammar
import ScreenActions.Proofs.ContextViews

/-!
Field maps of an element. When their names are plain, all of them are written, and under each name
stands the value of the last field map that has it, or else what has been there before.
-/

namespace ScreenActions

open Text

/-- A name that is a path of one key: it is not empty, has no characters with a meaning in a path,
and no blanks around it. -/
def FieldPath.PlainName (name : String) : Prop :=
  name ≠ "" ∧ FieldPath.Plain name.toList ∧ trimText name = name

instance (name : String) : Decidable (FieldPath.PlainName name) :=
  inferInstanceAs (Decidable (_ ∧ _ ∧ _))

theorem FieldPath.PlainName.root?_ofText {name : String} (h : PlainName name) :
    (ofText name).root? = some (name, []) := by
  obtain ⟨hne, hplain, htrim⟩ := h
  have hroot := FieldPath.root?_ofText hplain (by rwa [htrim])
  rwa [htrim] at hroot

theorem exists_of_bind_eq_ok {α β : Type} {x : Except DefinitionError α}
    {f : α → Except DefinitionError β} {b : β} (h : x >>= f = .ok b) :
    ∃ a, x = .ok a ∧ f a = .ok b := by
  cases x with
  | error err => cases h
  | ok a => exact ⟨a, rfl, h⟩

namespace Element

theorem eq_attr_of_requireAttr {e : Element} {name value : String}
    (h : e.requireAttr name = .ok value) : value = e.attr name := by
  unfold requireAttr at h
  dsimp only at h
  split at h <;> cases h
  rfl

/-- The last field map with a name. -/
def lastMapped? (e : Element) (name : String) : Option Element :=
  (e.childrenNamed "field-map").reverse.find? fun m => m.attr "field-name" == name

/-- The value of a field map: that of its template, or else of the field it is taken from, which has
the same name if there is no other; null if the field is missing. -/
def mappedValue (m : Element) (heap : BundleHeap) (c : Context) : Value :=
  if m.attr "value" ≠ "" then (Template.ofText (m.attr "value")).expand heap c
  else
    let source := if m.attr "from-field" ≠ "" then m.attr "from-field" else m.attr "field-name"
    ((FieldPath.ofText source).getValue? heap c).getD .null

/-- The value of a name in a map that field maps are written to: that of the last one with the name,
or else what the name takes by itself. -/
inductive FieldValue (e : Element) (heap : BundleHeap) (c : Context)
    (ByItself : String → Value → Prop) (name : String) : Value → Prop
  | mapped {m : Element} (last : e.lastMapped? name = some m) :
      FieldValue e heap c ByItself name (m.mappedValue heap c)
  | byItself {v : Value} (unmapped : e.lastMapped? name = none) (value : ByItself name v) :
      FieldValue e heap c ByItself name v

end Element

/-- A field of the `parameters` map, if that is a map. -/
def Context.parameter? (c : Context) (name : String) : Option Value :=
  match c.get? parametersKey with
  | some (.map parameters) => Keyed.get? parameters name
  | _ => none

theorem Context.get?_parameters (c : Context) (name : String) :
    Keyed.get? (((c.get? parametersKey).bind Value.map?).getD []) name = c.parameter? name := by
  unfold parameter?
  cases c.get? parametersKey with
  | none => rfl
  | some v => cases v <;> rfl

namespace FieldMap

variable {m : Element} {f : FieldMap} {heap : BundleHeap} {c : Context}

theorem of_ofElement_eq_ok (h : ofElement m = .ok f) :
    f.target = FieldPath.ofText (m.attr "field-name") ∧
      ∀ heap c, f.resolve heap c = m.mappedValue heap c := by
  obtain ⟨name, hname, h⟩ := exists_of_bind_eq_ok h
  cases Element.eq_attr_of_requireAttr hname
  cases h
  refine ⟨rfl, fun heap c => ?_⟩
  unfold resolve Element.mappedValue
  by_cases hvalue : m.attr "value" = ""
  · by_cases hfield : m.attr "from-field" = "" <;> simp [Element.hasAttr, hvalue, hfield]
  · simp [Element.hasAttr, hvalue]

theorem expandAll_cons_of_plain {rest : List FieldMap} {name : String}
    (h : f.target.root? = some (name, [])) (base : ValueMap) :
    expandAll (f :: rest) heap c base =
      expandAll rest heap c (Keyed.insert name (f.resolve heap c) base) := by
  rw [expandAll, FieldPath.put_of_root h]
  rfl

/-- Field maps with plain names are all written, over what has been there before. -/
theorem expandAll_of_plain {e : Element} {maps : List FieldMap} (h : ofChildren e = .ok maps)
    (hnames : ∀ m ∈ e.childrenNamed "field-map", FieldPath.PlainName (m.attr "field-name"))
    (heap : BundleHeap) (c : Context) (base : ValueMap) :
    ∃ target, expandAll maps heap c base = (target, .ok ()) ∧
      (Keyed.Ordered base → Keyed.Ordered target) ∧
      ∀ name, Keyed.get? target name =
        ((e.lastMapped? name).map (·.mappedValue heap c)).or (Keyed.get? base name) := by
  unfold ofChildren at h
  unfold Element.lastMapped?
  rw [mapM_eq_ok_iff] at h
  generalize e.childrenNamed "field-map" = children at h hnames ⊢
  induction h generalizing base with
  | nil => exact ⟨base, rfl, id, fun _ => rfl⟩
  | @cons m f children maps hf _ ih =>
    obtain ⟨hm, hchildren⟩ := List.forall_mem_cons.mp hnames
    obtain ⟨htarget, hresolve⟩ := of_ofElement_eq_ok hf
    have hroot : f.target.root? = some (m.attr "field-name", []) := htarget ▸ hm.root?_ofText
    obtain ⟨target, hexpand, hordered, hget⟩ :=
      ih (Keyed.insert (m.attr "field-name") (f.resolve heap c) base) hchildren
    refine ⟨target, (expandAll_cons_of_plain hroot base).trans hexpand,
      fun hbase => hordered (hbase.insert _ _), fun name => ?_⟩
    -- The last of the others that has the name comes before this one, and this one before `base`.
    rw [hget, Keyed.get?_insert, hresolve, List.reverse_cons, List.find?_append]
    cases children.reverse.find? fun m => m.attr "field-name" == name with
    | some _ => rfl
    | none => by_cases hname : m.attr "field-name" = name <;> simp [hname]

/-- Field maps with plain names, over a map of what the names take by themselves. -/
theorem expandAll_iff_fieldValue {e : Element} {maps : List FieldMap} {base : ValueMap}
    {ByItself : String → Value → Prop} (h : ofChildren e = .ok maps)
    (hnames : ∀ m ∈ e.childrenNamed "field-map", FieldPath.PlainName (m.attr "field-name"))
    (heap : BundleHeap) (c : Context) (hordered : Keyed.Ordered base)
    (hbase : ∀ name v, Keyed.get? base name = some v ↔ ByItself name v) :
    ∃ target, expandAll maps heap c base = (target, .ok ()) ∧ Keyed.Ordered target ∧
      ∀ name v, Keyed.get? target name = some v ↔ e.FieldValue heap c ByItself name v := by
  obtain ⟨target, hexpand, htarget, hget⟩ := expandAll_of_plain h hnames heap c base
  refine ⟨target, hexpand, htarget hordered, fun name v => ?_⟩
  rw [hget]
  constructor
  · intro hv
    cases hlast : e.lastMapped? name with
    | some m =>
      rw [hlast] at hv
      obtain rfl := Option.some.inj hv
      exact .mapped hlast
    | none =>
      rw [hlast] at hv
      exact .byItself hlast ((hbase name v).mp hv)
  · rintro (⟨last⟩ | ⟨unmapped, value⟩)
    · rw [last]
      rfl
    · rw [unmapped]
      exact (hbase name v).mpr value

end FieldMap
end ScreenActions
