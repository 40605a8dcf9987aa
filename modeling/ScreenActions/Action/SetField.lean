import ScreenActions.Action.Basic

/-! Setting a field from another field, a template or a default. -/

namespace ScreenActions

structure SetField where
  field : FieldPath
  fromField : FieldPath
  value : Template
  default : Template
  global : Template
  typeName : String
  toScope : FieldScope
  fromScope : FieldScope
  deriving Repr

namespace SetField

/-- A field to read from and a value exclude each other. -/
def ofElement (e : Element) : Except DefinitionError SetField := do
  let field ← e.requireAttr "field"
  let fromField := FieldPath.ofText (e.attr "from-field")
  let value := Template.ofText (e.attr "value")
  if !fromField.isEmpty && !value.isEmpty then
    throw (.fromFieldAndValue fromField.text value.source)
  return {
    field := FieldPath.ofText field
    fromField := fromField
    value := value
    default := Template.ofText (e.attr "default-value")
    global := Template.ofText (e.attr "global")
    typeName := Text.trimText (e.attr "type")
    toScope := FieldScope.ofName (e.attr "to-scope")
    fromScope := FieldScope.ofName (e.attr "from-scope") }

variable {ω : Type}

def sessionStore : String := "session store"
def applicationStore : String := "application store"

/-- The store of a scope, if it is not the screen itself. -/
def store? (s : RunState ω) : FieldScope → Except ActionError (Option ScopedStore)
  | .screen => .ok none
  | .user =>
      match s.session with
      | some store => .ok (some store)
      | none => .error (.missingCollaborator sessionStore)
  | .application =>
      match s.application with
      | some store => .ok (some store)
      | none => .error (.missingCollaborator applicationStore)

def withStore (s : RunState ω) (store : ScopedStore) : FieldScope → RunState ω
  | .screen => s
  | .user => { s with session := some store }
  | .application => { s with application := some store }

/-- The value to set before defaults and conversion; null when there is none. -/
def source (a : SetField) (s : RunState ω) : Except ActionError Value := do
  if !a.fromField.isEmpty then
    match ← store? s a.fromScope with
    | some store =>
        let trail := s.context.widgetTrail s.heap
        return (store.findInTrail? trail a.fromField.text).getD .null
    | none => return (a.fromField.getValue? s.heap s.context).getD .null
  else if !a.value.isEmpty then return .text (a.value.expandText s.heap s.context)
  else return .null

/-- A value in the declared type, if one is declared. -/
def typed (a : SetField) (heap : BundleHeap) (v : Value) : Except ActionError Value :=
  if a.typeName.isEmpty then .ok v
  else
    (v.convert heap a.typeName).mapError
      (.conversion a.field.text a.typeName (v.display heap))

/-- The source, or the default when the source is empty, in the declared type. -/
def newValue (a : SetField) (s : RunState ω) : Except ActionError Value := do
  let v ← a.source s
  a.typed s.heap (if v.isEmpty && !a.default.isEmpty then
    .text (a.default.expandText s.heap s.context) else v)

/-- Writes the value to its store or to the context, to the global map when that is asked for, and
into the page map when there is one. -/
def run (a : SetField) : Step ω ActionError Unit := do
  let s ← get
  let global := a.global.isTrue s.heap s.context
  let v ← ExceptT.mk (pure (a.newValue s))
  match ← ExceptT.mk (pure (store? s a.toScope)) with
  | some store =>
      let key := ScopedStore.trailKey (s.context.widgetTrail s.heap) a.field.text
      set (withStore s (store.set key v) a.toScope)
  | none => if !global then Step.mapError .path (Step.put a.field v)
  if global then
    if s.context.global.isSome then Step.mapError .path (Step.putGlobal a.field v)
    else Step.mapError .path (Step.put a.field v)
  Step.mapError .path (Step.putWithin Context.pageKey a.field v)

end SetField
end ScreenActions
