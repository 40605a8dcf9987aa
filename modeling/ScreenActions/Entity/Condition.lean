import ScreenActions.Context
import ScreenActions.Definition.Element
import ScreenActions.Template

/-! Conditions of entity queries, as they are defined and as they are sent. -/

namespace ScreenActions

open Text

inductive ComparisonOperator
  | equals | notEquals | lessThan | greaterThan | lessThanEqualTo | greaterThanEqualTo
  | isIn | notIn | between | like | notLike
  deriving DecidableEq, Repr

namespace ComparisonOperator

def name : ComparisonOperator → String
  | .equals => "equals"
  | .notEquals => "not-equals"
  | .lessThan => "less-than"
  | .greaterThan => "greater-than"
  | .lessThanEqualTo => "less-than-equal-to"
  | .greaterThanEqualTo => "greater-than-equal-to"
  | .isIn => "in"
  | .notIn => "not-in"
  | .between => "between"
  | .like => "like"
  | .notLike => "not-like"

def all : List ComparisonOperator :=
  [.equals, .notEquals, .lessThan, .greaterThan, .lessThanEqualTo, .greaterThanEqualTo,
    .isIn, .notIn, .between, .like, .notLike]

/-- The operator of a name; no name means `equals`. -/
def ofName? (s : String) : Option ComparisonOperator :=
  if s.isEmpty then some .equals else all.find? (·.name == s)

/-- Whether the right-hand side is a collection. -/
def takesList : ComparisonOperator → Bool
  | .isIn | .notIn | .between => true
  | _ => false

end ComparisonOperator

inductive JoinOperator
  | and | or
  deriving DecidableEq, Repr

namespace JoinOperator

def name : JoinOperator → String
  | .and => "and"
  | .or => "or"

/-- The operator of a name; no name means `and`. -/
def ofName? : String → Option JoinOperator
  | "" | "and" => some .and
  | "or" => some .or
  | _ => none

end JoinOperator

/-- A condition with all values resolved. -/
inductive EntityCondition
  | expr (field : String) (operator : ComparisonOperator) (value : Value) (ignoreCase : Bool)
  | list (join : JoinOperator) (conditions : List EntityCondition)
  deriving Repr

namespace EntityCondition

def equals (field : String) (value : Value) : EntityCondition := .expr field .equals value false

/-- All fields equal to their values, in key order. -/
def allEqual (fields : ValueMap) : EntityCondition :=
  .list .and (fields.map fun e => equals e.1 e.2)

end EntityCondition

/-- A single comparison as it is defined. -/
structure ConditionExpr where
  field : String
  operator : ComparisonOperator
  /-- The field to compare with; without one the value counts. -/
  source : Option FieldPath
  value : Template
  ignoreIfNull : Bool
  ignoreIfEmpty : Bool
  ignoreCase : Bool
  ignored : Template
  deriving Repr

/-- A condition as it is defined. -/
inductive ConditionSpec
  | expr (e : ConditionExpr)
  | list (join : JoinOperator) (conditions : List ConditionSpec)
  deriving Repr

/-- A template that gives `true`. -/
def Template.isTrue (t : Template) (heap : BundleHeap) (c : Context) : Bool :=
  t.expandText heap c == "true"

namespace ConditionExpr

def ofElement (e : Element) : Except DefinitionError ConditionExpr := do
  let operator ← match ComparisonOperator.ofName? (e.attr "operator") with
    | some op => .ok op
    | none => .error (.invalidAttribute e.tag "operator" (e.attr "operator"))
  let field ← e.requireAttr "field-name"
  let ignoreIfNull ← e.boolAttr "ignore-if-null" false
  let ignoreIfEmpty ← e.boolAttr "ignore-if-empty" false
  let ignoreCase ← e.boolAttr "ignore-case" false
  return {
    field := field
    operator := operator
    source := if e.hasAttr "env-name" then some (FieldPath.ofText (e.attr "env-name")) else none
    value := Template.ofText (e.attr "value")
    ignoreIfNull := ignoreIfNull
    ignoreIfEmpty := ignoreIfEmpty
    ignoreCase := ignoreCase
    ignored := Template.ofText (e.attr "ignore") }

def sourceValue (e : ConditionExpr) (heap : BundleHeap) (c : Context) : Value :=
  match e.source with
  | some p => (p.getValue? heap c).getD .null
  | none => e.value.expand heap c

/-- A text as the list of its trimmed parts between commas. -/
def listed (op : ComparisonOperator) : Value → Value
  | .text s =>
      if op.takesList then
        .list ((splitAll (· == ',') s.toList).map fun t => .text (String.ofList (trim t)))
      else .text s
  | v => v

/-- Whether the expression is left out. -/
def isIgnored (e : ConditionExpr) (heap : BundleHeap) (c : Context) : Bool :=
  let v := e.sourceValue heap c
  e.ignored.isTrue heap c || (e.ignoreIfNull && v.isNull) || (e.ignoreIfEmpty && v.isEmpty)

def resolve? (e : ConditionExpr) (heap : BundleHeap) (c : Context) : Option EntityCondition :=
  if e.isIgnored heap c then none
  else some (.expr e.field e.operator (listed e.operator (e.sourceValue heap c)) e.ignoreCase)

end ConditionExpr

namespace ConditionSpec

mutual
def ofElement (e : Element) : Except DefinitionError ConditionSpec :=
  match e with
  | ⟨tag, attributes, children⟩ =>
      let e : Element := ⟨tag, attributes, children⟩
      if tag = "condition-expr" then (ConditionExpr.ofElement e).map .expr
      else if tag = "condition-list" then
        match JoinOperator.ofName? (e.attr "combine") with
        | some join => (ofElements children).map (.list join)
        | none => .error (.invalidAttribute tag "combine" (e.attr "combine"))
      else .error (.unsupportedCondition tag)

def ofElements : List Element → Except DefinitionError (List ConditionSpec)
  | [] => .ok []
  | e :: es => do
      let spec ← ofElement e
      let specs ← ofElements es
      return spec :: specs
end

mutual
/-- The condition without the expressions that are ignored and the lists that they leave empty. -/
def resolve? (heap : BundleHeap) (c : Context) : ConditionSpec → Option EntityCondition
  | .expr e => e.resolve? heap c
  | .list join specs =>
      match resolveAll heap c specs with
      | [] => none
      | conditions => some (.list join conditions)

def resolveAll (heap : BundleHeap) (c : Context) : List ConditionSpec → List EntityCondition
  | [] => []
  | s :: ss => (resolve? heap c s).toList ++ resolveAll heap c ss
end

end ConditionSpec
end ScreenActions
