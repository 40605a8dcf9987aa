import ScreenActions.Action.Labels
import ScreenActions.Action.Related
import ScreenActions.Action.Script
import ScreenActions.Action.Service
import ScreenActions.Action.SetField

/-! Lists of actions, run one after the other up to the first failure. -/

namespace ScreenActions

inductive ScreenAction
  | setField (a : SetField)
  | propertyMap (a : PropertyMap)
  | propertyToField (a : PropertyToField)
  | script (a : ScriptCall)
  | service (a : ServiceCall)
  | entityOne (a : EntityOne)
  | entityAnd (a : EntityAnd)
  | entityCondition (a : EntityByCondition)
  | relatedOne (a : RelatedOne)
  | related (a : RelatedList)
  deriving Repr

namespace ScreenAction

def ofElement (e : Element) : Except DefinitionError ScreenAction :=
  match e.tag with
  | "set" => (SetField.ofElement e).map .setField
  | "property-map" => (PropertyMap.ofElement e).map .propertyMap
  | "property-to-field" => (PropertyToField.ofElement e).map .propertyToField
  | "script" => (ScriptCall.ofElement e).map .script
  | "service" => (ServiceCall.ofElement e).map .service
  | "entity-one" => (EntityOne.ofElement e).map .entityOne
  | "entity-and" => (EntityAnd.ofElement e).map .entityAnd
  | "entity-condition" => (EntityByCondition.ofElement e).map .entityCondition
  | "get-related-one" => (RelatedOne.ofElement e).map .relatedOne
  | "get-related" => (RelatedList.ofElement e).map .related
  | tag => .error (.unsupportedAction tag)

/-- The tag of the element that defines the action. -/
def tag : ScreenAction → String
  | .setField _ => "set"
  | .propertyMap _ => "property-map"
  | .propertyToField _ => "property-to-field"
  | .script _ => "script"
  | .service _ => "service"
  | .entityOne _ => "entity-one"
  | .entityAnd _ => "entity-and"
  | .entityCondition _ => "entity-condition"
  | .relatedOne _ => "get-related-one"
  | .related _ => "get-related"

variable {ω : Type}

def run (env : ActionEnv ω) : ScreenAction → Step ω ActionError Unit
  | .setField a => a.run
  | .propertyMap a => a.run env
  | .propertyToField a => a.run env
  | .script a => a.run env
  | .service a => a.run env
  | .entityOne a => a.run env
  | .entityAnd a => a.run env
  | .entityCondition a => a.run env
  | .relatedOne a => a.run env
  | .related a => a.run env

end ScreenAction

/-- The action that failed, by position and tag, and why. -/
structure ActionFailure where
  index : Nat
  tag : String
  source : ActionError
  deriving DecidableEq, Repr

def ActionFailure.message (f : ActionFailure) : String :=
  "Screen action #" ++ toString f.index ++ " <" ++ f.tag ++ "> failed: " ++ f.source.message

abbrev ActionList := List ScreenAction

namespace ActionList

def ofElements (es : List Element) : Except DefinitionError ActionList :=
  es.mapM ScreenAction.ofElement

variable {ω : Type}

/-- Runs the actions in their order, the first of them at position `index`. -/
def runFrom (env : ActionEnv ω) (index : Nat) : ActionList → Step ω ActionFailure Unit
  | [] => return
  | a :: rest => do
      Step.mapError (⟨index, a.tag, ·⟩) (a.run env)
      runFrom env (index + 1) rest

def run (env : ActionEnv ω) (actions : ActionList) : Step ω ActionFailure Unit :=
  runFrom env 0 actions

end ActionList
end ScreenActions
