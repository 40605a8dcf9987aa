import ScreenActions.Action.Find

/-! Following relations of an entity in the context. -/

namespace ScreenActions

/-- The entity that a relation starts from; nothing when the value is missing or null. -/
def relationSource (valueName : FieldPath) (relation : String) (c : Context) :
    Except ActionError (Option Entity) :=
  match valueName.get? c with
  | none | some .null => .ok none
  | some (.entity name fields) => .ok (some ⟨name, fields⟩)
  | some _ => .error (.notAnEntity valueName.text relation)

structure RelatedOne where
  valueName : FieldPath
  toValueName : FieldPath
  relation : String
  useCache : Bool
  deriving Repr

namespace RelatedOne

def ofElement (e : Element) : Except DefinitionError RelatedOne := do
  let valueName ← e.requireAttr "value-name"
  let toValueName ← e.requireAttr "to-value-name"
  let relation ← e.requireAttr "relation-name"
  return ⟨FieldPath.ofText valueName, FieldPath.ofText toValueName, relation,
    e.attr "use-cache" == "true"⟩

variable {ω : Type}

def run (a : RelatedOne) (env : ActionEnv ω) : Step ω ActionError Unit := do
  let s ← get
  match ← ExceptT.mk (pure (relationSource a.valueName a.relation s.context)) with
  | none => return
  | some entity =>
      let delegator ← Step.require delegatorName env.delegator
      let found ← Step.mapError (.relation "related one" entity.name a.relation)
        (Step.call (delegator.relatedOne entity a.relation a.useCache))
      let value := match found with
        | some e => e.value
        | none => .null
      Step.mapError .path (Step.put a.toValueName value)

end RelatedOne

structure RelatedList where
  valueName : FieldPath
  listName : FieldPath
  mapName : FieldPath
  orderByListName : FieldPath
  relation : String
  useCache : Bool
  deriving Repr

namespace RelatedList

def ofElement (e : Element) : Except DefinitionError RelatedList := do
  let valueName ← e.requireAttr "value-name"
  let listName ← e.requireAttr "list-name"
  let relation ← e.requireAttr "relation-name"
  return {
    valueName := FieldPath.ofText valueName
    listName := FieldPath.ofText listName
    mapName := FieldPath.ofText (e.attr "map-name")
    orderByListName := FieldPath.ofText (e.attr "order-by-list-name")
    relation := relation
    useCache := e.attr "use-cache" == "true" }

/-- The fields to sort by, if a list names any. -/
def orderBy (a : RelatedList) (heap : BundleHeap) (c : Context) : List String :=
  match a.orderByListName.get? c with
  | some (.list items) => items.map (·.display heap)
  | _ => []

variable {ω : Type}

def run (a : RelatedList) (env : ActionEnv ω) : Step ω ActionError Unit := do
  let s ← get
  match ← ExceptT.mk (pure (relationSource a.valueName a.relation s.context)) with
  | none => return
  | some entity =>
      let equalTo := (a.mapName.get? s.context).bind Value.map?
      let delegator ← Step.require delegatorName env.delegator
      let found ← Step.mapError (.relation "related" entity.name a.relation)
        (Step.call (delegator.related entity a.relation equalTo
          (a.orderBy s.heap s.context) a.useCache))
      Step.mapError .path (Step.put a.listName (.list (found.map Entity.value)))

end RelatedList
end ScreenActions
