import ScreenActions.Action.Basic
import ScreenActions.Messages.Pattern

/-! Message bundles as maps in the context, and single messages in fields. -/

namespace ScreenActions

def propertySourceName : String := "property source"

structure PropertyMap where
  resource : Template
  mapName : FieldPath
  global : Template
  deriving Repr

namespace PropertyMap

def ofElement (e : Element) : Except DefinitionError PropertyMap := do
  let resource ← e.requireAttr "resource"
  let mapName ← e.requireAttr "map-name"
  return ⟨Template.ofText resource, FieldPath.ofText mapName, Template.ofText (e.attr "global")⟩

/-- The bundle map at a slot, which may also be missing or null. -/
def existing (a : PropertyMap) : Option Value → Except ActionError (Option BundleHandle)
  | none | some .null => .ok none
  | some (.bundle h) => .ok (some h)
  | some v => .error (.notABundle a.mapName.text v.typeName)

variable {ω : Type}

/-- A new bundle map with one bundle. -/
def alloc (b : Bundle) : Step ω ActionError BundleHandle := do
  let (h, heap) := (← Step.heap).alloc b
  Step.setHeap heap
  return h

def addBottom (h : BundleHandle) (b : Bundle) : Step ω ActionError Unit := do
  Step.setHeap ((← Step.heap).addBottom h b).1

/-- Puts the bundle below the map that is there, or makes a map of it. With the global flag the
global map gets a bundle map of its own, unless it holds the same one. -/
def run (a : PropertyMap) (env : ActionEnv ω) : Step ω ActionError Unit := do
  let s ← get
  let global := a.global.isTrue s.heap s.context
  let resource := a.resource.expandText s.heap s.context
  let properties ← Step.require propertySourceName env.properties
  let bundle ← Step.mapError (.property resource)
    (Step.call (properties.bundle resource s.context.locale))
  let existing ← ExceptT.mk (pure (a.existing (a.mapName.get? s.context)))
  match existing with
  | none => Step.mapError .path (Step.put a.mapName (.bundle (← alloc bundle)))
  | some h => addBottom h bundle
  if global then
    match (← Step.context).global with
    | none => return
    | some g =>
        match ← ExceptT.mk (pure (a.existing (a.mapName.get? g))) with
        | none => Step.mapError .path (Step.putGlobal a.mapName (.bundle (← alloc bundle)))
        | some h => if existing != some h then addBottom h bundle

end PropertyMap

structure PropertyToField where
  resource : Template
  property : Template
  field : FieldPath
  default : Template
  noLocale : Bool
  argListName : FieldPath
  deriving Repr

namespace PropertyToField

def ofElement (e : Element) : Except DefinitionError PropertyToField := do
  let field ← e.requireAttr "field"
  return {
    resource := Template.ofText (e.attr "resource")
    property := Template.ofText (e.attr "property")
    field := FieldPath.ofText field
    default := Template.ofText (e.attr "default")
    noLocale := e.attr "no-locale" == "true"
    argListName := FieldPath.ofText (e.attr "arg-list-name") }

/-- The arguments of the message, if a list that is not empty holds any. -/
def arguments (a : PropertyToField) (s : RunState ω) : List String :=
  match a.argListName.get? s.context with
  | some (.list args) => args.map (·.display s.heap)
  | _ => []

/-- The text for the field: the message, or the default for one that is missing or empty, expanded
and then given its arguments. -/
def text (a : PropertyToField) (s : RunState ω) (message : Option String) : String :=
  let raw := match message.filter (!·.isEmpty) with
    | some m => m
    | none => a.default.expandText s.heap s.context
  let expanded := Template.expandOnce raw s.heap s.context
  let args := a.arguments s
  if args.isEmpty then expanded else MessagePattern.format expanded args

variable {ω : Type}

/-- A resource that is missing reads like a missing message. -/
def foundMessage (resource : String) :
    Except PropertyError (Option String) → Except ActionError (Option String)
  | .ok m => .ok m
  | .error (.notFound ..) => .ok none
  | .error e => .error (.property resource e)

def run (a : PropertyToField) (env : ActionEnv ω) : Step ω ActionError Unit := do
  let s ← get
  let resource := a.resource.expandText s.heap s.context
  let property := a.property.expandText s.heap s.context
  let properties ← Step.require propertySourceName env.properties
  let locale := if a.noLocale then none else s.context.locale
  let message ← Step.call fun w =>
    let (answer, w) := properties.message resource property locale w
    (foundMessage resource answer, w)
  Step.mapError .path (Step.put a.field (.text (a.text s message)))

end PropertyToField
end ScreenActions
