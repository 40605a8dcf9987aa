import Mathlib.Data.List.Find
import ScreenActions.Proofs.ConditionPruning
import ScreenActions.Proofs.PrimaryKeyFinding

/-!
Finding a list by equal fields. The condition has one equality for each name of a field map, in
increasing order of the names, with the value of the last field map that has the name.
-/

namespace ScreenActions

open Step

theorem Keyed.mem_iff_get? {α : Type} {m : Keyed α} (h : Ordered m) {name : String} {v : α} :
    (name, v) ∈ m ↔ get? m name = some v :=
  ⟨get?_of_mem h.nodup, mem_of_get?⟩

namespace EntityCondition

/-- Verdicts on comparisons with a row. A case-sensitive equality is decided by `equal` on the field
of the row, which may be missing, and the value. -/
def JudgesRow (equal : Option Value → Value → Bool) (row : ValueMap)
    (verdict : Comparison → Bool) : Prop :=
  ∀ name v, verdict ⟨name, .equals, v, false⟩ = equal (Keyed.get? row name) v

theorem holds_allEqual_iff {equal : Option Value → Value → Bool} {row : ValueMap}
    {verdict : Comparison → Bool} (hrow : JudgesRow equal row verdict) (fields : ValueMap) :
    (allEqual fields).holds verdict = true ↔
      ∀ f ∈ fields, equal (Keyed.get? row f.1) f.2 = true := by
  rw [allEqual, holds, JoinOperator.combine, List.map_map, List.all_map, List.all_eq_true]
  simp only [Function.comp_apply, id_eq, equals, holds, hrow _ _]

end EntityCondition

namespace Element

/-- The second element is the first one with its field maps in some other order. -/
structure ReordersMaps (e e' : Element) : Prop where
  tag_eq : e'.tag = e.tag
  attributes_eq : e'.attributes = e.attributes
  maps_perm : (e'.childrenNamed "field-map").Perm (e.childrenNamed "field-map")
  others_eq : ∀ tag, tag ≠ "field-map" → e'.childrenNamed tag = e.childrenNamed tag

/-- Each name is that of one field map at most. -/
def MapsApart (e : Element) : Prop :=
  ((e.childrenNamed "field-map").map (·.attr "field-name")).Nodup

instance (e : Element) : Decidable e.MapsApart := inferInstanceAs (Decidable (List.Nodup _))

variable {e e' : Element}

theorem lastMapped?_isSome_iff {name : String} : (e.lastMapped? name).isSome = true ↔
    ∃ m ∈ e.childrenNamed "field-map", m.attr "field-name" = name := by
  simp [lastMapped?, List.find?_isSome]

theorem lastMapped?_of_perm
    (h : (e'.childrenNamed "field-map").Perm (e.childrenNamed "field-map")) (hapart : e.MapsApart)
    (name : String) : e'.lastMapped? name = e.lastMapped? name := by
  unfold lastMapped?
  have hperm : (e.childrenNamed "field-map").reverse.Perm (e'.childrenNamed "field-map").reverse :=
    List.perm_reverse.mpr ((List.reverse_perm _).trans h.symm)
  refine (List.find?_eq_find?_of_perm hperm fun m hm m' hm' => ?_).symm
  obtain ⟨hm, hname⟩ := hm
  obtain ⟨hm', hname'⟩ := hm'
  rw [List.mem_reverse] at hm hm'
  refine List.inj_on_of_nodup_map hapart hm hm' ?_
  rw [beq_iff_eq] at hname hname'
  rw [hname, hname']

namespace ReordersMaps

theorem attr_eq (h : ReordersMaps e e') (name : String) : e'.attr name = e.attr name := by
  unfold attr
  rw [h.attributes_eq]

theorem requireAttr_eq (h : ReordersMaps e e') (name : String) :
    e'.requireAttr name = e.requireAttr name := by
  unfold requireAttr
  rw [h.attr_eq, h.tag_eq]

theorem listQuery_eq (h : ReordersMaps e e') : ListQuery.ofElement e' = ListQuery.ofElement e := by
  unfold ListQuery.ofElement childFieldNames
  simp only [h.requireAttr_eq, h.attr_eq, h.others_eq "select-field" (by decide),
    h.others_eq "order-by" (by decide)]

theorem exists_fieldMaps (h : ReordersMaps e e') {maps : List FieldMap}
    (hmaps : FieldMap.ofChildren e = .ok maps) : ∃ maps', FieldMap.ofChildren e' = .ok maps' := by
  unfold FieldMap.ofChildren at hmaps ⊢
  rw [exists_eq_ok, accepted_mapM]
  intro m hm
  exact accepted_mapM.mp ⟨maps, hmaps⟩ m (h.maps_perm.subset hm)

end ReordersMaps
end Element

namespace FieldMap

/-- Field maps with plain names that are written to an empty map: what is written has one entry for
each of the names. -/
theorem expandAll_nil_of_plain {e : Element} {maps : List FieldMap} (h : ofChildren e = .ok maps)
    (hnames : ∀ m ∈ e.childrenNamed "field-map", FieldPath.PlainName (m.attr "field-name"))
    (heap : BundleHeap) (c : Context) :
    ∃ fields, expandAll maps heap c [] = (fields, .ok ()) ∧ Keyed.Ordered fields ∧
      ∀ name, Keyed.get? fields name = (e.lastMapped? name).map (·.mappedValue heap c) := by
  obtain ⟨fields, hexpand, hordered, hget⟩ := expandAll_of_plain h hnames heap c []
  exact ⟨fields, hexpand, hordered .nil, fun name => by rw [hget]; exact Option.or_none⟩

end FieldMap

namespace EntityAnd

variable {ω : Type} {e : Element} {a : EntityAnd}

theorem of_ofElement_eq_ok (h : ofElement e = .ok a) :
    ListQuery.ofElement e = .ok a.query ∧ FieldMap.ofChildren e = .ok a.fieldMaps := by
  obtain ⟨query, hquery, h⟩ := exists_of_bind_eq_ok h
  obtain ⟨maps, hmaps, h⟩ := exists_of_bind_eq_ok h
  cases h
  exact ⟨hquery, hmaps⟩

theorem ofElement_of_parts {query : ListQuery} {maps : List FieldMap}
    (hquery : ListQuery.ofElement e = .ok query) (hmaps : FieldMap.ofChildren e = .ok maps) :
    ofElement e = .ok ⟨query, maps⟩ := by
  unfold ofElement
  rw [hquery, hmaps]
  rfl

/-- On the state, the action asks the delegator for the list of the query and for nothing else, and
writes the list that it gets. -/
def Sends (a : EntityAnd) (s : RunState ω) (q : EntityQuery) : Prop :=
  ∀ (env : ActionEnv ω) (d : Delegator ω), env.delegator = some d →
    outcome (a.run env) s = outcome (mapError (.finder "and") (do
      let found ← mapError .entity (call (d.findList q))
      mapError .path (put a.query.listName (.list (found.map Entity.value))))) s

/-- The fields that have been mapped make the condition of the query. -/
theorem sends_of_expandAll {s : RunState ω} {fields : ValueMap}
    (h : FieldMap.expandAll a.fieldMaps s.heap s.context [] = (fields, .ok ())) :
    a.Sends s (a.query.query s.heap s.context (condition fields)) := by
  intro env d hd
  have hfind : outcome (a.find d) s = outcome (a.query.find d (condition fields)) s := by
    unfold find
    rw [outcome_bind_of_ok (outcome_get s)]
    simp only [h]
    rfl
  unfold run
  rw [hd]
  change outcome (mapError _ (a.find d)) s = _
  rw [outcome_mapError, hfind]
  rfl

/-- The condition compares each of the names that have a field map, and no other field, with the
value of the last field map of the name. -/
structure Compares (e : Element) (heap : BundleHeap) (c : Context) (fields : ValueMap) : Prop where
  increasing : (fields.map Prod.fst).Pairwise (· < ·)
  mem_iff : ∀ name v, (name, v) ∈ fields ↔
    ∃ m, e.lastMapped? name = some m ∧ v = m.mappedValue heap c

theorem compares_of_get? {heap : BundleHeap} {c : Context} {fields : ValueMap}
    (hordered : Keyed.Ordered fields)
    (hget : ∀ name, Keyed.get? fields name = (e.lastMapped? name).map (·.mappedValue heap c)) :
    Compares e heap c fields where
  increasing := List.pairwise_map.mpr hordered
  mem_iff name v := by
    rw [Keyed.mem_iff_get? hordered, hget, Option.map_eq_some_iff]
    simp only [eq_comm]

/-- Field maps leave no choice of what is compared. -/
theorem Compares.eq {heap : BundleHeap} {c : Context} {fields fields' : ValueMap}
    (h : Compares e heap c fields) (h' : Compares e heap c fields') : fields = fields' := by
  have hordered : Keyed.Ordered fields := List.pairwise_map.mp h.increasing
  have hordered' : Keyed.Ordered fields' := List.pairwise_map.mp h'.increasing
  refine hordered.ext hordered' fun name => Option.ext fun v => ?_
  rw [← Keyed.mem_iff_get? hordered, ← Keyed.mem_iff_get? hordered', h.mem_iff, h'.mem_iff]

theorem Compares.eq_nil_iff {heap : BundleHeap} {c : Context} {fields : ValueMap}
    (h : Compares e heap c fields) : fields = [] ↔ e.childrenNamed "field-map" = [] := by
  simp only [List.eq_nil_iff_forall_not_mem]
  constructor
  · intro hfields m hm
    have hsome := Element.lastMapped?_isSome_iff.mpr ⟨m, hm, rfl⟩
    obtain ⟨last, hlast⟩ := Option.isSome_iff_exists.mp hsome
    exact hfields _ ((h.mem_iff _ _).mpr ⟨last, hlast, rfl⟩)
  · rintro hmaps ⟨name, v⟩ hmem
    obtain ⟨last, hlast, -⟩ := (h.mem_iff name v).mp hmem
    obtain ⟨m, hm, -⟩ := Element.lastMapped?_isSome_iff.mp (by rw [hlast]; rfl)
    exact hmaps m hm

theorem condition_of_ne_nil {fields : ValueMap} (h : fields ≠ []) :
    condition fields = some (.list .and (fields.map fun f => .expr f.1 .equals f.2 false)) := by
  unfold condition
  rw [if_neg (by simpa using h)]
  rfl

theorem all_holds_condition (fields : ValueMap) (verdict : Comparison → Bool) :
    (condition fields).all (·.holds verdict) =
      (EntityCondition.allEqual fields).holds verdict := by
  unfold condition
  cases fields with
  | nil => simp [EntityCondition.allEqual, EntityCondition.holds, JoinOperator.combine]
  | cons f fields => rfl

/-- A condition holds of a row if each field that is compared equals its value; without a condition
there is no field to compare. -/
theorem Compares.all_holds_condition_iff {heap : BundleHeap} {c : Context} {fields : ValueMap}
    (h : Compares e heap c fields) {equal : Option Value → Value → Bool} {row : ValueMap}
    {verdict : Comparison → Bool} (hrow : EntityCondition.JudgesRow equal row verdict) :
    (condition fields).all (·.holds verdict) = true ↔ ∀ name m, e.lastMapped? name = some m →
      equal (Keyed.get? row name) (m.mappedValue heap c) = true := by
  rw [all_holds_condition, EntityCondition.holds_allEqual_iff hrow]
  constructor
  · intro hfields name m hm
    exact hfields (name, _) ((h.mem_iff name _).mpr ⟨m, hm, rfl⟩)
  · rintro hmaps ⟨name, v⟩ hmem
    obtain ⟨m, hm, rfl⟩ := (h.mem_iff name v).mp hmem
    exact hmaps name m hm

/-- The query has no condition without field maps. With field maps its condition is an and-list of
one case-sensitive equality for each of their names, in increasing order, with the value of the last
field map of the name. The order of field maps with different names does not matter, and a row meets
the condition if each of these fields equals its value. -/
theorem sends_last_mapped_values (ha : ofElement e = .ok a)
    (hnames : ∀ m ∈ e.childrenNamed "field-map", FieldPath.PlainName (m.attr "field-name"))
    (s : RunState ω) : ∃ q, a.Sends s q ∧
      (e.childrenNamed "field-map" = [] → q.condition = none) ∧
      (e.childrenNamed "field-map" ≠ [] → ∃ fields, Compares e s.heap s.context fields ∧
        q.condition = some (.list .and (fields.map fun f => .expr f.1 .equals f.2 false))) ∧
      (∀ e', e.ReordersMaps e' → e.MapsApart → ∃ a', ofElement e' = .ok a' ∧ a'.Sends s q) ∧
      ∀ equal row verdict, EntityCondition.JudgesRow equal row verdict →
        (q.condition.all (·.holds verdict) = true ↔ ∀ name m, e.lastMapped? name = some m →
          equal (Keyed.get? row name) (m.mappedValue s.heap s.context) = true) := by
  obtain ⟨hquery, hmaps⟩ := of_ofElement_eq_ok ha
  obtain ⟨fields, hexpand, hordered, hget⟩ :=
    FieldMap.expandAll_nil_of_plain hmaps hnames s.heap s.context
  have hcompares : Compares e s.heap s.context fields := compares_of_get? hordered hget
  refine ⟨_, sends_of_expandAll hexpand, fun hnil => ?_, fun hne => ⟨fields, hcompares, ?_⟩,
    fun e' hreorders hapart => ?_,
    fun equal row verdict hrow => hcompares.all_holds_condition_iff hrow⟩
  · obtain rfl := hcompares.eq_nil_iff.mpr hnil
    rfl
  · exact condition_of_ne_nil (hcompares.eq_nil_iff.not.mpr hne)
  · obtain ⟨maps', hmaps'⟩ := hreorders.exists_fieldMaps hmaps
    have hnames' : ∀ m ∈ e'.childrenNamed "field-map", FieldPath.PlainName (m.attr "field-name") :=
      fun m hm => hnames m (hreorders.maps_perm.subset hm)
    obtain ⟨fields', hexpand', hordered', hget'⟩ :=
      FieldMap.expandAll_nil_of_plain hmaps' hnames' s.heap s.context
    -- Each name has the same last field map in both orders, so the same fields are compared.
    obtain rfl : fields' = fields := hordered'.ext hordered fun name => by
      rw [hget, hget', Element.lastMapped?_of_perm hreorders.maps_perm hapart]
    exact ⟨⟨a.query, maps'⟩, ofElement_of_parts (hreorders.listQuery_eq.trans hquery) hmaps',
      sends_of_expandAll hexpand'⟩

theorem sends_order_with_last_status :
    let status (value : String) : Element :=
      ⟨"field-map", [("field-name", "statusId"), ("value", value)], []⟩
    let order : Element :=
      ⟨"field-map", [("field-name", "orderId"), ("from-field", "order.id")], []⟩
    let e : Element := ⟨"entity-and", [("entity-name", "OrderHeader"), ("list-name", "orders")],
      [status "ORDER_NEW", order, status "ORDER_SENT"]⟩
    let c : Context := { top := [("order", .map [("id", .text "WS10000")])] }
    let s : RunState Nat := ⟨c, [], none, none, 0⟩
    ∃ a q, ofElement e = .ok a ∧
      (∀ m ∈ e.childrenNamed "field-map", FieldPath.PlainName (m.attr "field-name")) ∧
      a.Sends s q ∧ q.condition = some (.list .and [.expr "orderId" .equals (.text "WS10000") false,
        .expr "statusId" .equals (.text "ORDER_SENT") false]) := by
  intro status order e c s
  obtain ⟨a, ha⟩ : ∃ a, ofElement e = .ok a := ⟨_, rfl⟩
  have hnames : ∀ m ∈ e.childrenNamed "field-map", FieldPath.PlainName (m.attr "field-name") := by
    decide
  obtain ⟨q, hsends, -, hcondition, -⟩ := sends_last_mapped_values ha hnames s
  obtain ⟨fields, hcompares, hq⟩ := hcondition (by decide)
  have hsent : (status "ORDER_SENT").mappedValue [] c = .text "ORDER_SENT" := by
    change (Template.ofText "ORDER_SENT").expand [] c = _
    rw [Template.ofText_of_not_occursIn (by decide)]
    rfl
  have horderId : order.mappedValue [] c = .text "WS10000" := by
    have hfield : (FieldPath.ofText "order.id").getValue? [] c = some (.text "WS10000") := rfl
    change ((FieldPath.ofText "order.id").getValue? [] c).getD .null = _
    rw [hfield]
    rfl
  have hexpected : Compares e s.heap s.context
      [("orderId", .text "WS10000"), ("statusId", .text "ORDER_SENT")] := by
    refine compares_of_get? (List.pairwise_pair.mpr (by decide)) fun name => ?_
    by_cases horder : "orderId" = name
    · subst horder
      exact (congrArg some horderId).symm
    · by_cases hstatus : "statusId" = name
      · subst hstatus
        exact (congrArg some hsent).symm
      · simp [Keyed.get?, horder, hstatus, Element.lastMapped?, Element.childrenNamed, e, status,
          order, Element.attr]
  obtain rfl := hcompares.eq hexpected
  exact ⟨a, q, ha, hnames, hsends, hq⟩

end EntityAnd
end ScreenActions
