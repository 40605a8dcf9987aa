import Mathlib.Data.List.DropRight
import Mathlib.Data.List.Forall2
import ScreenActions.Action.List

/-!
The grammar of actions. What an element of each tag must have is stated apart from the readers, and
a list of elements is read exactly if each of them is in the grammar.
-/

namespace ScreenActions

variable {α β : Type}

/-- The definition is accepted. -/
def Accepted (x : Except DefinitionError α) : Prop := ∃ a, x = .ok a

@[simp] theorem exists_eq_ok {x : Except DefinitionError α} : (∃ a, x = .ok a) ↔ Accepted x :=
  Iff.rfl

@[simp] theorem accepted_ok (a : α) : Accepted (.ok a) := ⟨a, rfl⟩

@[simp] theorem accepted_pure (a : α) : Accepted (pure a) := ⟨a, rfl⟩

@[simp] theorem not_accepted_error (err : DefinitionError) :
    ¬Accepted (.error err : Except _ α) := nofun

@[simp] theorem not_accepted_throw (err : DefinitionError) :
    ¬Accepted (throw err : Except _ α) := nofun

@[simp] theorem accepted_map {x : Except DefinitionError α} {f : α → β} :
    Accepted (x.map f) ↔ Accepted x := by
  cases x <;> simp [Except.map]

@[simp] theorem accepted_fmap {x : Except DefinitionError α} {f : α → β} :
    Accepted (f <$> x) ↔ Accepted x :=
  accepted_map

@[simp] theorem accepted_bind {x : Except DefinitionError α} {f : α → Except DefinitionError β} :
    Accepted (x >>= f) ↔ ∃ a, x = .ok a ∧ Accepted (f a) := by
  cases x <;> simp [bind, Except.bind]

section Lists

variable {f : α → Except DefinitionError β} {a : α} {l : List α}

theorem mapM_cons_of_error {err : DefinitionError} (h : f a = .error err) :
    (a :: l).mapM f = .error err := by
  rw [List.mapM_cons, h]
  rfl

theorem mapM_cons_of_ok {b : β} (h : f a = .ok b) :
    (a :: l).mapM f = (l.mapM f).map (b :: ·) := by
  rw [List.mapM_cons, h]
  cases l.mapM f <;> rfl

@[simp] theorem accepted_mapM : Accepted (l.mapM f) ↔ ∀ a ∈ l, Accepted (f a) := by
  induction l with
  | nil => simp
  | cons a l ih => simp [List.mapM_cons, ih]

theorem mapM_eq_ok_iff {bs : List β} :
    l.mapM f = .ok bs ↔ List.Forall₂ (fun a b => f a = .ok b) l bs := by
  induction l generalizing bs with
  | nil => simp [pure, Except.pure, eq_comm]
  | cons a l ih =>
    rw [List.forall₂_cons_left_iff]
    cases hhead : f a with
    | error err => simp [mapM_cons_of_error hhead]
    | ok b =>
      simp only [mapM_cons_of_ok hhead, ← ih]
      cases l.mapM f <;> simp [Except.map, eq_comm]

/-- The error of a list is that of its first element that is not accepted. -/
theorem mapM_eq_error_iff {err : DefinitionError} : l.mapM f = .error err ↔
    ∃ before a after, l = before ++ a :: after ∧ (∀ b ∈ before, Accepted (f b)) ∧
      f a = .error err := by
  constructor
  · intro h
    induction l with
    | nil => cases h
    | cons a l ih =>
      cases hhead : f a with
      | error err' =>
        rw [mapM_cons_of_error hhead] at h
        obtain rfl := Except.error.inj h
        exact ⟨[], a, l, rfl, nofun, hhead⟩
      | ok b =>
        have hrest : l.mapM f = .error err := by
          rw [mapM_cons_of_ok hhead] at h
          cases hl : l.mapM f with
          | error err' => rwa [hl] at h
          | ok bs => rw [hl] at h; cases h
        obtain ⟨before, a', after, rfl, hbefore, herr⟩ := ih hrest
        exact ⟨a :: before, a', after, rfl, List.forall_mem_cons.mpr ⟨⟨b, hhead⟩, hbefore⟩, herr⟩
  · rintro ⟨before, a, after, rfl, hbefore, herr⟩
    induction before with
    | nil => exact mapM_cons_of_error herr
    | cons b before ih =>
      obtain ⟨⟨_, hhead⟩, hbefore⟩ := List.forall_mem_cons.mp hbefore
      rw [List.cons_append, mapM_cons_of_ok hhead, ih hbefore]
      rfl

end Lists

namespace Element

@[elab_as_elim, induction_eliminator]
theorem induction {motive : Element → Prop}
    (mk : ∀ tag attributes children, (∀ e ∈ children, motive e) →
      motive ⟨tag, attributes, children⟩) : ∀ e, motive e
  | ⟨tag, attributes, children⟩ => mk tag attributes children fun e _ => induction mk e

/-- The attribute is neither absent nor empty. -/
def Gives (e : Element) (name : String) : Prop := e.attr name ≠ ""

/-- The attribute is `true`, `false`, empty or absent. -/
def IsFlag (e : Element) (name : String) : Prop := e.attr name ∈ ["", "true", "false"]

/-- Each child of the tag names a field. -/
def NamesFields (e : Element) (tag : String) : Prop :=
  ∀ c ∈ e.children, c.tag = tag → c.Gives "field-name"

/-- The child is the first one with the tag of a condition. -/
def FirstCondition (e c : Element) : Prop :=
  (∃ kind, c.tag = "condition-" ++ kind) ∧ ∃ before after,
    e.children = before ++ c :: after ∧ ∀ b ∈ before, ¬∃ kind, b.tag = "condition-" ++ kind

end Element

/-- The names of the operators that compare. -/
def operatorNames : List String :=
  ["equals", "not-equals", "less-than", "greater-than", "less-than-equal-to",
    "greater-than-equal-to", "in", "not-in", "between", "like", "not-like"]

/-- A comparison in a condition. -/
structure IsComparison (e : Element) : Prop where
  operator : e.attr "operator" = "" ∨ e.attr "operator" ∈ operatorNames
  field : e.Gives "field-name"
  ignoreIfNull : e.IsFlag "ignore-if-null"
  ignoreIfEmpty : e.IsFlag "ignore-if-empty"
  ignoreCase : e.IsFlag "ignore-case"

/-- A condition of comparisons and of lists that join conditions. -/
inductive IsCondition : Element → Prop
  | expr {e : Element} (tag : e.tag = "condition-expr") (comparison : IsComparison e) :
      IsCondition e
  | list {e : Element} (tag : e.tag = "condition-list")
      (combine : e.attr "combine" ∈ ["", "and", "or"])
      (members : ∀ c ∈ e.children, IsCondition c) : IsCondition e

/-- The attributes that an action of a tag must give. -/
def requiredAttributes : String → Option (List String)
  | "set" | "property-to-field" => some ["field"]
  | "property-map" => some ["resource", "map-name"]
  | "script" => some ["location"]
  | "service" => some ["service-name"]
  | "entity-one" => some ["entity-name", "value-name"]
  | "entity-and" | "entity-condition" => some ["entity-name", "list-name"]
  | "get-related-one" => some ["value-name", "to-value-name", "relation-name"]
  | "get-related" => some ["value-name", "list-name", "relation-name"]
  | _ => none

/-- An element that defines an action. -/
@[mk_iff]
structure IsAction (e : Element) : Prop where
  required : ∃ names, requiredAttributes e.tag = some names ∧ ∀ name ∈ names, e.Gives name
  oneSource : e.tag = "set" →
    Text.isBlankText (e.attr "from-field") = true ∨ e.attr "value" = ""
  autoFieldMap : e.tag = "entity-one" → e.IsFlag "auto-field-map"
  fieldMaps : e.tag ∈ ["service", "entity-one", "entity-and"] → e.NamesFields "field-map"
  selected : e.tag ∈ ["entity-one", "entity-and", "entity-condition"] →
    e.NamesFields "select-field"
  orderBy : e.tag ∈ ["entity-and", "entity-condition"] → e.NamesFields "order-by"
  condition : e.tag = "entity-condition" → ∀ c, e.FirstCondition c → IsCondition c

section Attributes

variable {e : Element}

@[simp] theorem accepted_requireAttr {name : String} :
    Accepted (e.requireAttr name) ↔ e.Gives name := by
  unfold Element.requireAttr Element.Gives
  by_cases h : e.attr name = "" <;> simp [h]

@[simp] theorem accepted_boolAttr {name : String} {default : Bool} :
    Accepted (e.boolAttr name default) ↔ e.IsFlag name := by
  unfold Element.boolAttr Element.IsFlag
  by_cases hempty : e.attr name = ""
  · simp [hempty]
  · by_cases htrue : e.attr name = "true"
    · simp [htrue]
    · by_cases hfalse : e.attr name = "false" <;> simp [hempty, htrue, hfalse]

@[simp] theorem accepted_childFieldNames {tag : String} :
    Accepted (childFieldNames e tag) ↔ e.NamesFields tag := by
  simp [childFieldNames, Element.childrenNamed, Element.NamesFields]

@[simp] theorem accepted_fieldMaps :
    Accepted (FieldMap.ofChildren e) ↔ e.NamesFields "field-map" := by
  simp [FieldMap.ofChildren, FieldMap.ofElement, Element.childrenNamed, Element.NamesFields]

end Attributes

section Conditions

theorem JoinOperator.exists_ofName?_iff (name : String) :
    (∃ join, JoinOperator.ofName? name = some join) ↔ name ∈ ["", "and", "or"] := by
  unfold JoinOperator.ofName?
  split <;> simp_all

theorem ComparisonOperator.exists_ofName?_iff (name : String) :
    (∃ op, ComparisonOperator.ofName? name = some op) ↔ name = "" ∨ name ∈ operatorNames := by
  have hnames : operatorNames = ComparisonOperator.all.map ComparisonOperator.name := rfl
  rw [hnames, List.mem_map, ComparisonOperator.ofName?]
  by_cases hempty : name = ""
  · simp [hempty]
  · simp [hempty, ← Option.isSome_iff_exists]

theorem accepted_comparison {e : Element} :
    Accepted (ConditionExpr.ofElement e) ↔ IsComparison e := by
  have hname := ComparisonOperator.exists_ofName?_iff (e.attr "operator")
  unfold ConditionExpr.ofElement
  cases hop : ComparisonOperator.ofName? (e.attr "operator") with
  | none =>
    have hunknown : ¬(e.attr "operator" = "" ∨ e.attr "operator" ∈ operatorNames) := by
      simp [← hname, hop]
    exact iff_of_false (by simp) fun h => hunknown h.operator
  | some op =>
    have hknown := hname.mp ⟨op, hop⟩
    simp only [accepted_bind, accepted_pure, and_true, exists_and_right, exists_eq_ok, accepted_ok,
      accepted_requireAttr, accepted_boolAttr]
    constructor
    · rintro ⟨-, field, ifNull, ifEmpty, ignoreCase⟩
      exact ⟨hknown, field, ifNull, ifEmpty, ignoreCase⟩
    · rintro ⟨-, field, ifNull, ifEmpty, ignoreCase⟩
      exact ⟨trivial, field, ifNull, ifEmpty, ignoreCase⟩

theorem ofElements_eq_mapM (es : List Element) :
    ConditionSpec.ofElements es = es.mapM ConditionSpec.ofElement := by
  induction es with
  | nil => rfl
  | cons e es ih => rw [ConditionSpec.ofElements, List.mapM_cons, ih]

theorem accepted_condition (e : Element) :
    Accepted (ConditionSpec.ofElement e) ↔ IsCondition e := by
  induction e with
  | mk tag attributes children ih =>
    let e : Element := ⟨tag, attributes, children⟩
    rw [ConditionSpec.ofElement]
    by_cases hexpr : tag = "condition-expr"
    · rw [if_pos hexpr, accepted_map, accepted_comparison]
      constructor
      · exact .expr hexpr
      · rintro (⟨-, h⟩ | ⟨hlist, -, -⟩)
        · exact h
        · simp [hexpr] at hlist
    rw [if_neg hexpr]
    by_cases hlist : tag = "condition-list"
    · rw [if_pos hlist]
      have hmembers : Accepted (ConditionSpec.ofElements children) ↔
          ∀ c ∈ children, IsCondition c := by
        rw [ofElements_eq_mapM, accepted_mapM]
        exact forall₂_congr ih
      have hcombine := JoinOperator.exists_ofName?_iff (e.attr "combine")
      cases hjoin : JoinOperator.ofName? (e.attr "combine") with
      | none =>
        refine iff_of_false (not_accepted_error _) ?_
        rintro (⟨htag, -⟩ | ⟨-, combine, -⟩)
        · exact hexpr htag
        · obtain ⟨join, hsome⟩ := hcombine.mpr combine
          rw [hjoin] at hsome
          cases hsome
      | some join =>
        simp only [accepted_map, hmembers]
        constructor
        · exact .list hlist (hcombine.mp ⟨join, hjoin⟩)
        · rintro (⟨htag, -⟩ | ⟨-, -, members⟩)
          · exact absurd htag hexpr
          · exact members
    · rw [if_neg hlist]
      refine iff_of_false (not_accepted_error _) ?_
      rintro (⟨htag, -⟩ | ⟨htag, -, -⟩)
      · exact hexpr htag
      · exact hlist htag

end Conditions

section Actions

variable {e : Element}

/-- A path is empty if there is nothing but blanks in its text. -/
theorem isEmpty_ofText (s : String) : (FieldPath.ofText s).isEmpty = Text.isBlankText s := by
  have hstart : Text.trim s.toList = [] ↔ Text.trimStart s.toList = [] := by
    rw [Text.trim, Text.trimEnd, List.reverse_eq_nil_iff, List.dropWhile_eq_nil_iff]
    simp only [List.mem_reverse]
    rw [← List.dropWhile_eq_nil_iff, List.dropWhile_idempotent]
  rw [Bool.eq_iff_iff]
  simp [FieldPath.ofText, FieldPath.isEmpty, hstart, Text.isBlankText, Text.isAllBlank]

theorem accepted_setField : Accepted (SetField.ofElement e) ↔
    e.Gives "field" ∧ (Text.isBlankText (e.attr "from-field") = true ∨ e.attr "value" = "") := by
  have hsource : ((!(FieldPath.ofText (e.attr "from-field")).isEmpty &&
      !(Template.ofText (e.attr "value")).isEmpty) = true) ↔
        ¬(Text.isBlankText (e.attr "from-field") = true ∨ e.attr "value" = "") := by
    simp [isEmpty_ofText, Template.ofText, Template.isEmpty]
  simp only [SetField.ofElement, hsource]
  by_cases h : Text.isBlankText (e.attr "from-field") = true ∨ e.attr "value" = "" <;> simp [h]

theorem accepted_propertyMap : Accepted (PropertyMap.ofElement e) ↔
    e.Gives "resource" ∧ e.Gives "map-name" := by
  simp [PropertyMap.ofElement]

theorem accepted_propertyToField :
    Accepted (PropertyToField.ofElement e) ↔ e.Gives "field" := by
  simp [PropertyToField.ofElement]

theorem accepted_script : Accepted (ScriptCall.ofElement e) ↔ e.Gives "location" := by
  simp [ScriptCall.ofElement]

theorem accepted_service : Accepted (ServiceCall.ofElement e) ↔
    e.Gives "service-name" ∧ e.NamesFields "field-map" := by
  simp [ServiceCall.ofElement]

theorem accepted_entityOne : Accepted (EntityOne.ofElement e) ↔
    (e.Gives "entity-name" ∧ e.Gives "value-name") ∧ e.IsFlag "auto-field-map" ∧
      e.NamesFields "field-map" ∧ e.NamesFields "select-field" := by
  simp [EntityOne.ofElement, and_assoc, -Bool.exists_bool]

theorem accepted_listQuery : Accepted (ListQuery.ofElement e) ↔
    (e.Gives "entity-name" ∧ e.Gives "list-name") ∧ e.NamesFields "select-field" ∧
      e.NamesFields "order-by" := by
  simp [ListQuery.ofElement, and_assoc]

theorem accepted_entityAnd : Accepted (EntityAnd.ofElement e) ↔
    ((e.Gives "entity-name" ∧ e.Gives "list-name") ∧ e.NamesFields "select-field" ∧
      e.NamesFields "order-by") ∧ e.NamesFields "field-map" := by
  simp [EntityAnd.ofElement, accepted_listQuery]

theorem find?_eq_some_iff_firstCondition {c : Element} :
    (e.children.find? fun c => Text.startsWith "condition-".toList c.tag.toList) = some c ↔
      e.FirstCondition c := by
  have htag : ∀ tag : String, Text.startsWith "condition-".toList tag.toList = true ↔
      ∃ kind, tag = "condition-" ++ kind := by
    intro tag
    rw [Text.startsWith_iff]
    constructor
    · rintro ⟨rest, hrest⟩
      exact ⟨String.ofList rest, by rw [← String.toList_inj]; simp [hrest]⟩
    · rintro ⟨kind, rfl⟩
      exact ⟨kind.toList, String.toList_append⟩
  simp only [List.find?_eq_some_iff_append, Bool.not_eq_true', ← Bool.not_eq_true, htag]
  rfl

theorem accepted_entityCondition : Accepted (EntityByCondition.ofElement e) ↔
    (∀ c, e.FirstCondition c → IsCondition c) ∧
      (e.Gives "entity-name" ∧ e.Gives "list-name") ∧ e.NamesFields "select-field" ∧
        e.NamesFields "order-by" := by
  simp only [← find?_eq_some_iff_firstCondition, EntityByCondition.ofElement]
  cases e.children.find? fun c => Text.startsWith "condition-".toList c.tag.toList with
  | none => simp [accepted_listQuery]
  | some c => simp [accepted_listQuery, accepted_condition]

theorem accepted_relatedOne : Accepted (RelatedOne.ofElement e) ↔
    e.Gives "value-name" ∧ e.Gives "to-value-name" ∧ e.Gives "relation-name" := by
  simp [RelatedOne.ofElement]

theorem accepted_related : Accepted (RelatedList.ofElement e) ↔
    e.Gives "value-name" ∧ e.Gives "list-name" ∧ e.Gives "relation-name" := by
  simp [RelatedList.ofElement]

theorem accepted_action : Accepted (ScreenAction.ofElement e) ↔ IsAction e := by
  unfold ScreenAction.ofElement
  rw [isAction_iff]
  split
  case h_1 htag => simp [htag, requiredAttributes, accepted_setField]
  case h_2 htag => simp [htag, requiredAttributes, accepted_propertyMap]
  case h_3 htag => simp [htag, requiredAttributes, accepted_propertyToField]
  case h_4 htag => simp [htag, requiredAttributes, accepted_script]
  case h_5 htag => simp [htag, requiredAttributes, accepted_service]
  case h_6 htag => simp [htag, requiredAttributes, accepted_entityOne]
  case h_7 htag => simp [htag, requiredAttributes, accepted_entityAnd]; tauto
  case h_8 htag => simp [htag, requiredAttributes, accepted_entityCondition]; tauto
  case h_9 htag => simp [htag, requiredAttributes, accepted_relatedOne]
  case h_10 htag => simp [htag, requiredAttributes, accepted_related]
  case h_11 => simp_all [requiredAttributes]

theorem tag_of_map {x : Except DefinitionError α} {f : α → ScreenAction} {a : ScreenAction}
    {tag : String} (hf : ∀ b, (f b).tag = tag) (h : x.map f = .ok a) : a.tag = tag := by
  cases x with
  | error err => cases h
  | ok b => exact Except.ok.inj h ▸ hf b

theorem tag_of_ofElement {a : ScreenAction} (h : ScreenAction.ofElement e = .ok a) :
    a.tag = e.tag := by
  unfold ScreenAction.ofElement at h
  split at h
  case h_11 => cases h
  all_goals
    next htag => exact htag ▸ tag_of_map (fun _ => rfl) h

end Actions

/-- A list of elements is read exactly if each of them is in the grammar. Then the actions stand in
the order of the elements that define them; otherwise the error is that of the first element outside
the grammar. -/
theorem ActionList.ofElements_accepts_grammar (es : List Element) :
    ((∃ actions, ActionList.ofElements es = .ok actions) ↔ ∀ e ∈ es, IsAction e) ∧
      (∀ actions, ActionList.ofElements es = .ok actions →
        actions.map ScreenAction.tag = es.map Element.tag) ∧
      ∀ err, ActionList.ofElements es = .error err ↔ ∃ before e after,
        es = before ++ e :: after ∧ (∀ b ∈ before, IsAction b) ∧ ¬IsAction e ∧
          ScreenAction.ofElement e = .error err := by
  simp only [← accepted_action]
  refine ⟨accepted_mapM, fun actions h => ?_, fun err => ?_⟩
  · rw [ActionList.ofElements, mapM_eq_ok_iff] at h
    induction h with
    | nil => rfl
    | cons hhead _ ih => rw [List.map_cons, List.map_cons, ih, tag_of_ofElement hhead]
  · rw [ActionList.ofElements, mapM_eq_error_iff]
    constructor
    · rintro ⟨before, e, after, hes, hbefore, herr⟩
      exact ⟨before, e, after, hes, hbefore, herr ▸ not_accepted_error err, herr⟩
    · rintro ⟨before, e, after, hes, hbefore, -, herr⟩
      exact ⟨before, e, after, hes, hbefore, herr⟩

end ScreenActions
