import ScreenActions.Conversion
import ScreenActions.Entity.Delegator
import ScreenActions.Messages.Source
import ScreenActions.Scope
import ScreenActions.Script
import ScreenActions.Service

/-! What actions run on and with, and how they fail. -/

namespace ScreenActions

/-- All that a run can change: the context, the bundle maps that values share, the stores of the
session and the application if there are any, and what the collaborators keep for themselves. -/
structure RunState (ω : Type) where
  context : Context
  heap : BundleHeap
  session : Option ScopedStore
  application : Option ScopedStore
  world : ω

/-- A script runs on the state itself. -/
abbrev ScriptRunner (ω : Type) := String → RunState ω → Except ScriptError Unit × RunState ω

/-- A method of a resource gets a copy of the visible fields and gives fields back. -/
abbrev MethodRunner (ω : Type) :=
  String → String → ValueMap → ω → Except ScriptError ValueMap × ω

/-- The collaborators of a run. Each may be missing. All but the scripts see what they are asked and
what they keep, and have no hold on the stores and the bundle maps. -/
structure ActionEnv (ω : Type) where
  dispatcher : Option (Dispatcher ω) := none
  delegator : Option (Delegator ω) := none
  properties : Option (PropertySource ω) := none
  scripts : ScriptRunners (ScriptRunner ω) := []
  methods : Option (MethodRunner ω) := none

namespace ActionEnv

variable {ω : Type}

/-- The collaborators at hand, in one line. -/
def summary (env : ActionEnv ω) (s : RunState ω) : String :=
  let flag (b : Bool) := if b then "true" else "false"
  "ActionEnv \x7b session: " ++ flag s.session.isSome ++
    ", application: " ++ flag s.application.isSome ++
    ", dispatcher: " ++ flag env.dispatcher.isSome ++
    ", delegator: " ++ flag env.delegator.isSome ++
    ", properties: " ++ flag env.properties.isSome ++
    ", scripts: ScriptRegistry \x7b runners: " ++
    Text.Quoted.encodeAll (env.scripts.map fun r => r.suffix ++ "=" ++ r.kind) ++
    ", method_runner: " ++ flag env.methods.isSome ++ " \x7d \x7d"

end ActionEnv

inductive FinderError
  | entity (e : EntityError)
  | path (e : PathError)
  deriving DecidableEq, Repr

def FinderError.message : FinderError → String
  | .entity e => e.message
  | .path e => e.message

inductive ActionError
  | conversion (field typeName value : String) (source : ConversionError)
  | emptyServiceName (template : String)
  | service (service : String) (source : ServiceError)
  | script (kind location : String) (source : ScriptError)
  | unsupportedScript (location : String)
  | finder (strategy : String) (source : FinderError)
  | notAnEntity (valueName relation : String)
  | relation (target entity relation : String) (source : EntityError)
  | property (resource : String) (source : PropertyError)
  | notABundle (mapName found : String)
  | missingCollaborator (name : String)
  | path (source : PathError)
  deriving DecidableEq, Repr

def ActionError.message : ActionError → String
  | .conversion field typeName value source =>
      "Could not convert field value for the field: [" ++ field ++ "] to the [" ++ typeName ++
        "] type for the value [" ++ value ++ "]: " ++ source.message
  | .emptyServiceName template => "Service name was empty, expanded from: " ++ template
  | .service name source =>
      "Error calling service with name " ++ name ++ ": " ++ source.message
  | .script kind location source =>
      "Error running " ++ kind ++ " script at location [" ++ location ++ "]: " ++ source.message
  | .unsupportedScript location =>
      "For screen script actions the script type is not yet supported for location: [" ++
        location ++ "]"
  | .finder strategy source =>
      "Error doing entity query by " ++ strategy ++ ": " ++ source.message
  | .notAnEntity valueName name =>
      "Env variable for value-name " ++ valueName ++
        " is not an entity value; for the relation-name: " ++ name
  | .relation target entity name source =>
      "Problem getting " ++ target ++ " from entity with name " ++ entity ++
        " for the relation-name: " ++ name ++ ": " ++ source.message
  | .property resource source =>
      "Could not load property resource [" ++ resource ++ "]: " ++ source.message
  | .notABundle mapName found =>
      "Value at [" ++ mapName ++ "] is a " ++ found ++ ", not a property map"
  | .missingCollaborator name => "No " ++ name ++ " is available to this action"
  | .path source => source.message

/-- A step of a run. What it has changed stays changed when it fails. -/
abbrev Step (ω ε α : Type) := ExceptT ε (StateM (RunState ω)) α

namespace Step

variable {ω ε α : Type}

def context : Step ω ε Context := return (← get).context

def heap : Step ω ε BundleHeap := return (← get).heap

def modifyContext (f : Context → Context) : Step ω ε Unit :=
  modify fun s => { s with context := f s.context }

def setHeap (heap : BundleHeap) : Step ω ε Unit := modify fun s => { s with heap := heap }

/-- The answer of a collaborator. -/
def call (f : ω → Except ε α × ω) : Step ω ε α := do
  let (answer, world) := f (← get).world
  modify fun s => { s with world := world }
  match answer with
  | .ok a => return a
  | .error e => throw e

/-- A collaborator that has to be there. -/
def require (name : String) : Option α → Step ω ActionError α
  | some a => return a
  | none => throw (.missingCollaborator name)

/-- A step whose errors are those of another one. -/
def mapError {δ : Type} (f : ε → δ) (step : Step ω ε α) : Step ω δ α :=
  fun s => let (answer, s) := step s; (answer.mapError f, s)

/-- A value written at a path of the context. -/
def put (p : FieldPath) (v : Value) : Step ω PathError Unit := fun s =>
  let (context, result) := p.put s.context v
  (result, { s with context := context })

/-- A value written at a path of the global map, if there is one. -/
def putGlobal (p : FieldPath) (v : Value) : Step ω PathError Unit := fun s =>
  match s.context.global with
  | none => (.ok (), s)
  | some g =>
      let (g, result) := p.put g v
      (result, { s with context := { s.context with global := some g } })

/-- A value written at a path of a field that is a map; any other field stays as it is. -/
def putWithin (key : String) (p : FieldPath) (v : Value) : Step ω PathError Unit := fun s =>
  match s.context.get? key with
  | some (.map m) =>
      let (m, result) := p.put (σ := ValueMap) m v
      (result, { s with context := s.context.replace key (.map m) })
  | _ => (.ok (), s)

end Step

/-- Which store a field is read from or written to. -/
inductive FieldScope
  | screen | user | application
  deriving DecidableEq, Repr

namespace FieldScope

def ofName : String → FieldScope
  | "user" => .user
  | "application" => .application
  | _ => .screen

end FieldScope
end ScreenActions
