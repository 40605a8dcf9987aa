import ScreenActions.Action.Basic
import ScreenActions.FieldMap

/-! Finding entities by primary key, by equal fields and by a condition. -/

namespace ScreenActions

def delegatorName : String := "entity delegator"

/-- The field names of the children with a tag. -/
def childFieldNames (e : Element) (tag : String) : Except DefinitionError (List String) :=
  (e.childrenNamed tag).mapM (·.requireAttr "field-name")

/-- An entity with the selected fields only; no selection means all fields. -/
def Entity.select (e : Entity) (fields : List String) : Entity :=
  if fields.isEmpty then e else { e with fields := e.fields.filter fun f => fields.contains f.1 }

structure EntityOne where
  entityName : Template
  valueName : FieldPath
  useCache : Template
  autoFieldMap : Bool
  fieldMaps : List FieldMap
  select : List String
  deriving Repr

namespace EntityOne

def ofElement (e : Element) : Except DefinitionError EntityOne := do
  let entityName ← e.requireAttr "entity-name"
  let valueName ← e.requireAttr "value-name"
  let autoFieldMap ← e.boolAttr "auto-field-map" true
  let fieldMaps ← FieldMap.ofChildren e
  let select ← childFieldNames e "select-field"
  return {
    entityName := Template.ofText entityName
    valueName := FieldPath.ofText valueName
    useCache := Template.ofText (e.attr "use-cache")
    autoFieldMap := autoFieldMap
    fieldMaps := fieldMaps
    select := select }

/-- What a key field takes by itself: the visible field, else the parameter, unless it is null. -/
def autoValue? (c : Context) (field : String) : Option Value :=
  let parameters := ((c.get? Context.parametersKey).bind Value.map?).getD []
  (((c.get? field).filter (!·.isNull)).or (Keyed.get? parameters field)).filter (!·.isNull)

/-- The key fields that take a value by themselves. -/
def autoKey (c : Context) (fields : List String) : ValueMap :=
  Keyed.ofEntries (fields.filterMap fun f => (autoValue? c f).map fun v => (f, v))

variable {ω : Type}

def find (a : EntityOne) (delegator : Delegator ω) : Step ω FinderError Unit := do
  let s ← get
  let entity := a.entityName.expandText s.heap s.context
  let key ←
    if a.autoFieldMap then do
      let fields ← Step.mapError .entity (Step.call (delegator.primaryKey entity))
      pure (autoKey s.context fields)
    else pure []
  let (key, written) := FieldMap.expandAll a.fieldMaps s.heap s.context key
  ExceptT.mk (pure (written.mapError .path))
  let found ← Step.mapError .entity
    (Step.call (delegator.findOne entity key (a.useCache.isTrue s.heap s.context)))
  let value := match found with
    | some e => (e.select a.select).value
    | none => .null
  Step.mapError .path (Step.put a.valueName value)

def run (a : EntityOne) (env : ActionEnv ω) : Step ω ActionError Unit := do
  let delegator ← Step.require delegatorName env.delegator
  Step.mapError (.finder "primary key") (a.find delegator)

end EntityOne

/-- What the two list finders have in common. -/
structure ListQuery where
  entityName : Template
  listName : FieldPath
  useCache : Template
  filterByDate : Template
  distinct : Template
  select : List String
  orderBy : List String
  deriving Repr

namespace ListQuery

def ofElement (e : Element) : Except DefinitionError ListQuery := do
  let entityName ← e.requireAttr "entity-name"
  let listName ← e.requireAttr "list-name"
  let select ← childFieldNames e "select-field"
  let orderBy ← childFieldNames e "order-by"
  return {
    entityName := Template.ofText entityName
    listName := FieldPath.ofText listName
    useCache := Template.ofText (e.attr "use-cache")
    filterByDate := Template.ofText (e.attr "filter-by-date")
    distinct := Template.ofText (e.attr "distinct")
    select := select
    orderBy := orderBy }

def query (q : ListQuery) (heap : BundleHeap) (c : Context) (condition : Option EntityCondition) :
    EntityQuery where
  entity := q.entityName.expandText heap c
  condition := condition
  select := q.select
  orderBy := q.orderBy
  useCache := q.useCache.isTrue heap c
  distinct := q.distinct.isTrue heap c
  filterByDate := q.filterByDate.isTrue heap c

variable {ω : Type}

def find (q : ListQuery) (delegator : Delegator ω) (condition : Option EntityCondition) :
    Step ω FinderError Unit := do
  let s ← get
  let found ← Step.mapError .entity
    (Step.call (delegator.findList (q.query s.heap s.context condition)))
  Step.mapError .path (Step.put q.listName (.list (found.map Entity.value)))

end ListQuery

structure EntityAnd where
  query : ListQuery
  fieldMaps : List FieldMap
  deriving Repr

namespace EntityAnd

def ofElement (e : Element) : Except DefinitionError EntityAnd := do
  let query ← ListQuery.ofElement e
  let fieldMaps ← FieldMap.ofChildren e
  return ⟨query, fieldMaps⟩

/-- All fields equal to their values, or no condition without fields. -/
def condition (fields : ValueMap) : Option EntityCondition :=
  if fields.isEmpty then none else some (.allEqual fields)

variable {ω : Type}

def find (a : EntityAnd) (delegator : Delegator ω) : Step ω FinderError Unit := do
  let s ← get
  let (fields, written) := FieldMap.expandAll a.fieldMaps s.heap s.context []
  ExceptT.mk (pure (written.mapError .path))
  a.query.find delegator (condition fields)

def run (a : EntityAnd) (env : ActionEnv ω) : Step ω ActionError Unit := do
  let delegator ← Step.require delegatorName env.delegator
  Step.mapError (.finder "and") (a.find delegator)

end EntityAnd

structure EntityByCondition where
  query : ListQuery
  condition : Option ConditionSpec
  deriving Repr

namespace EntityByCondition

/-- The first child whose tag starts like that of a condition is the condition. -/
def ofElement (e : Element) : Except DefinitionError EntityByCondition := do
  let condition ←
    match e.children.find? fun c => Text.startsWith "condition-".toList c.tag.toList with
    | some c => (ConditionSpec.ofElement c).map some
    | none => pure none
  let query ← ListQuery.ofElement e
  return ⟨query, condition⟩

variable {ω : Type}

def find (a : EntityByCondition) (delegator : Delegator ω) : Step ω FinderError Unit := do
  let s ← get
  a.query.find delegator (a.condition.bind (·.resolve? s.heap s.context))

def run (a : EntityByCondition) (env : ActionEnv ω) : Step ω ActionError Unit := do
  let delegator ← Step.require delegatorName env.delegator
  Step.mapError (.finder "condition") (a.find delegator)

end EntityByCondition
end ScreenActions
