import ScreenActions.Action.Basic
import ScreenActions.FieldMap

/-! Calling a service and keeping its results. -/

namespace ScreenActions

structure ServiceCall where
  serviceName : Template
  resultMapName : Option FieldPath
  autoFieldMap : Template
  fieldMaps : List FieldMap
  deriving Repr

namespace ServiceCall

def ofElement (e : Element) : Except DefinitionError ServiceCall := do
  let name ← e.requireAttr "service-name"
  let fieldMaps ← FieldMap.ofChildren e
  return {
    serviceName := Template.ofText name
    resultMapName :=
      if e.hasAttr "result-map-name" then some (FieldPath.ofText (e.attr "result-map-name"))
      else none
    autoFieldMap := Template.ofText (e.attr "auto-field-map")
    fieldMaps := fieldMaps }

def queryStringKey : String := "queryString"
def queryStringMapKey : String := "queryStringMap"
def queryStringEncodedKey : String := "queryStringEncoded"

/-- Each ampersand as its percent escape. -/
def encodeAmpersands (s : String) : String :=
  String.ofList (s.toList.flatMap fun c => if c = '&' then ['%', '2', '6'] else [c])

/-- The map that the input is taken from: all visible fields over the parameters, or the map at
the path named; none when nothing is asked for or nothing is there. -/
def inputSource (mode : String) (c : Context) : Option ValueMap :=
  if mode = "true" then
    let parameters := ((c.get? Context.parametersKey).bind Value.map?).getD []
    some (Keyed.extend parameters c.flatten)
  else if mode.isEmpty || mode = "false" then none
  else ((FieldPath.ofText mode).get? c).bind Value.map?

variable {ω : Type}

def validInput (dispatcher : Dispatcher ω) (service : String) :
    Option ValueMap → Step ω ServiceError ValueMap
  | some source => Step.call (dispatcher.validInput service source)
  | none => return []

/-- The results under a name, with the query string also encoded in a field of its own. -/
def keepUnder (p : FieldPath) (result : ValueMap) : Step ω ActionError Unit := do
  let queryString := (Keyed.get? result queryStringKey).getD .null
  let queryStringMap := (Keyed.get? result queryStringMapKey).getD .null
  Step.mapError .path (Step.put p (.map result))
  if let .text s := queryString then
    if !s.isEmpty then
      Step.modifyContext (·.insert queryStringEncodedKey (.text (encodeAmpersands s)))
  Step.modifyContext (·.insert queryStringKey queryString)
  Step.modifyContext (·.insert queryStringMapKey queryStringMap)

def run (a : ServiceCall) (env : ActionEnv ω) : Step ω ActionError Unit := do
  let s ← get
  let service := a.serviceName.expandText s.heap s.context
  if service.isEmpty then throw (.emptyServiceName a.serviceName.source)
  let dispatcher ← Step.require "service dispatcher" env.dispatcher
  let mode := a.autoFieldMap.expandText s.heap s.context
  let input ← Step.mapError (.service service)
    (validInput dispatcher service (inputSource mode s.context))
  let (input, written) := FieldMap.expandAll a.fieldMaps s.heap s.context input
  ExceptT.mk (pure (written.mapError .path))
  let result ← Step.mapError (.service service) (Step.call (dispatcher.run service input))
  match a.resultMapName with
  | some p => keepUnder p result
  | none => Step.modifyContext (·.extend result)

end ServiceCall
end ScreenActions
