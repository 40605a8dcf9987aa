import ScreenActions.Action.List
import ScreenActions.Config
import ScreenActions.Definition.Screen
import ScreenActions.Json.Writer
import ScreenActions.Value.Json

/-! The commands that check and run the definitions of screens. -/

namespace ScreenActions

open Text

structure RunOptions where
  /-- The file of the initial context. -/
  context : Option String := none
  trail : List String := []
  pretty : Bool := false
  deriving DecidableEq, Repr

inductive Command
  | check (definition : String) (json : Bool)
  | run (definition : String) (options : RunOptions)
  deriving DecidableEq, Repr

structure Invocation where
  config : String := "screenkit.yml"
  command : Command
  deriving DecidableEq, Repr

/-- The options of a command with their values, and its other arguments. -/
structure Arguments where
  options : List (String × String) := []
  others : List String := []
  deriving DecidableEq, Repr

namespace Arguments

def isOption (a : String) : Bool := startsWith ['-'] a.toList && a != "-"

/-- The name of an option and what stands after an equals sign in it. -/
def cutOption (a : String) : String × Option String :=
  match cutFirst '=' a.toList with
  | some (name, value) => (String.ofList name, some (String.ofList value))
  | none => (a, none)

/-- Reads the options `flags`, which have no value, and `valued`, which have one. The other
arguments end them when `leading` is set; two hyphens end them always. -/
def read (flags valued : List String) (leading : Bool) : List String → Option Arguments
  | [] => some {}
  | "--" :: rest => if leading then none else some { others := rest }
  | a :: rest =>
      if isOption a then
        match cutOption a with
        | (name, none) =>
            if flags.contains name then
              (read flags valued leading rest).map fun r =>
                { r with options := (name, "") :: r.options }
            else if valued.contains name then
              match rest with
              | v :: rest =>
                  if isOption v then none
                  else (read flags valued leading rest).map fun r =>
                    { r with options := (name, v) :: r.options }
              | [] => none
            else none
        | (name, some v) =>
            if valued.contains name then
              (read flags valued leading rest).map fun r =>
                { r with options := (name, v) :: r.options }
            else none
      else if leading then some { others := a :: rest }
      else (read flags valued leading rest).map fun r => { r with others := a :: r.others }

def values (r : Arguments) (name : String) : List String :=
  (r.options.filter (·.1 == name)).map Prod.snd

/-- Whether a flag is set; it may stand once. -/
def flag? (r : Arguments) (names : List String) : Option Bool :=
  match r.options.filter fun o => names.contains o.1 with
  | [] => some false
  | [_] => some true
  | _ => none

/-- The path that an option gives; it may stand once and is not empty. -/
def path? (r : Arguments) (name : String) : Option (Option String) :=
  match r.values name with
  | [] => some none
  | [v] => if v.isEmpty then none else some (some v)
  | _ => none

/-- The only other argument, which is not empty. -/
def only? (r : Arguments) : Option String :=
  match r.others with
  | [v] => if v.isEmpty then none else some v
  | _ => none

end Arguments

namespace Command

def checkOf? (args : List String) : Option Command := do
  let r ← Arguments.read ["--json"] [] false args
  some (.check (← r.only?) (← r.flag? ["--json"]))

def runOf? (args : List String) : Option Command := do
  let r ← Arguments.read ["--pretty"] ["--context", "--trail"] false args
  let trail := (r.values "--trail").flatMap fun v =>
    (splitAll (· == ',') v.toList).map String.ofList
  some (.run (← r.only?) ⟨← r.path? "--context", trail, ← r.flag? ["--pretty"]⟩)

end Command

def Invocation.ofArguments? (args : List String) : Option Invocation := do
  let r ← Arguments.read ["-v", "--verbose"] ["--config"] true args
  let _ ← r.flag? ["-v", "--verbose"]
  let config ← r.path? "--config"
  let command ← match r.others with
    | "check" :: rest => Command.checkOf? rest
    | "run" :: rest => Command.runOf? rest
    | _ => none
  let default : Invocation := { command := command }
  some { default with config := config.getD default.config }

inductive CommandError
  | usage
  | config (source : ConfigError)
  | setting (source : ConfigError)
  | definition (path : String) (source : DefinitionError)
  | invalidDefinition (path : String) (source : DefinitionError)
  | contextUnreadable (path : String)
  | contextMalformed (path : String)
  | contextNotObject (path found : String)
  | screen (name : String) (source : ActionFailure)
  deriving DecidableEq, Repr

namespace CommandError

def message : CommandError → String
  | .usage => "usage: check or run, and the definition of a screen"
  | .config _ => "Failed to load configuration"
  | .setting source => source.message
  | .definition path _ => "Failed to load screen definition " ++ path
  | .invalidDefinition path _ => "Invalid screen definition " ++ path
  | .contextUnreadable path => "Failed to read context file " ++ path
  | .contextMalformed path => "Failed to parse context file " ++ path
  | .contextNotObject path found =>
      "Context file " ++ path ++ " must hold a JSON object, found " ++ found
  | .screen name _ => "Screen " ++ name ++ " failed"

/-- What has caused a failure, where its message does not tell. -/
def cause : CommandError → Option String
  | .config source => some source.message
  | .definition _ source | .invalidDefinition _ source => some source.message
  | .screen _ source => some source.message
  | _ => none

def exitCode : CommandError → Nat
  | .usage => 2
  | _ => 1

end CommandError

namespace CommandLine

/-- The actions of a definition that can be run. -/
def load (files : FileTree) (path : String) :
    Except CommandError (ScreenDefinition × ActionList) := do
  let definition ← (ScreenDefinition.ofFile files path).mapError (.definition path)
  let actions ← (ActionList.ofElements definition.actions).mapError (.invalidDefinition path)
  return (definition, actions)

def tagLines (index : Nat) : List String → String
  | [] => ""
  | tag :: tags =>
      "  #" ++ toString index ++ " <" ++ tag ++ ">\n" ++ tagLines (index + 1) tags

/-- The name of a definition and the tags of its actions, in lines or as JSON. -/
def check (files : FileTree) (path : String) (json : Bool) : Except CommandError String := do
  let (definition, actions) ← load files path
  let tags := actions.map ScreenAction.tag
  return if json then
    (Json.object [("name", .string definition.name), ("actions", Json.strings tags)]).prettyText
      ++ "\n"
  else
    "Screen " ++ definition.name ++ " is valid: " ++ toString tags.length ++ " actions\n" ++
      tagLines 0 tags

/-- Settings may be missing, but not broken. -/
def loadConfig (files : FileTree) (path : String) : Except CommandError Config :=
  if (files path).isSome then (Config.ofFile files path).mapError .config else .ok {}

/-- The fields of a context file. -/
def loadContext (files : FileTree) (path : String) : Except CommandError ValueMap :=
  match (files path).bind FileContent.text? with
  | none => .error (.contextUnreadable path)
  | some text =>
      match (Json.ofText? text).map Value.ofJson with
      | none => .error (.contextMalformed path)
      | some (.map m) => .ok m
      | some v => .error (.contextNotObject path v.typeName)

/-- A context from the settings, the context file and the trail, each over those before it. -/
def initialContext (files : FileTree) (config : Config) (options : RunOptions) :
    Except CommandError Context := do
  let c : Context := { global := if config.context.global then some [] else none }
  let locale ← config.locale.mapError .setting
  let c := match locale with
    | some l => c.setLocale l
    | none => c
  let c := match config.context.timeZone with
    | some z => c.insert Context.timeZoneKey (.text z)
    | none => c
  let c ← match options.context with
    | some path => (loadContext files path).map c.extend
    | none => .ok c
  return if options.trail.isEmpty then c else c.setWidgetTrail options.trail

/-- Messages from the roots, if there are any; no other collaborator is at hand. -/
def environment (files : FileTree) (config : Config) : ActionEnv BundleCache :=
  let roots := config.propertyRoots
  if roots.isEmpty then {}
  else { properties := some (FileSource.source ⟨roots, config.properties.cacheSize⟩ files) }

/-- The context and the stores after a run. -/
def report (s : RunState BundleCache) : Json :=
  let map (m : ValueMap) : Json := (Value.map m).toJson s.heap
  .object [("application", map (s.application.getD [])), ("context", map s.context.flatten),
    ("session", map (s.session.getD []))]

def run (files : FileTree) (configPath path : String) (options : RunOptions) :
    Except CommandError String := do
  let config ← loadConfig files configPath
  let (definition, actions) ← load files path
  let context ← initialContext files config options
  let (result, s) := actions.run (environment files config)
    { context := context, heap := [], session := some [], application := some [], world := {} }
  match result with
  | .error failure => .error (.screen definition.name failure)
  | .ok () =>
      let json := report s
      return (if options.pretty then json.prettyText else json.text) ++ "\n"

/-- The files that a command names. -/
def namedFiles (args : List String) : List String :=
  match Invocation.ofArguments? args with
  | none => []
  | some i =>
      match i.command with
      | .check path _ => [path]
      | .run path options => i.config :: path :: options.context.toList

/-- The directories whose files a command may read beside those that it names. -/
def namedRoots (files : FileTree) (args : List String) : List String :=
  match Invocation.ofArguments? args with
  | some ⟨config, .run ..⟩ =>
      match loadConfig files config with
      | .ok c => c.propertyRoots
      | .error _ => []
  | _ => []

/-- The output of a command. -/
def execute (files : FileTree) (args : List String) : Except CommandError String :=
  match Invocation.ofArguments? args with
  | none => .error .usage
  | some i =>
      match i.command with
      | .check path json => check files path json
      | .run path options => run files i.config path options

end CommandLine
end ScreenActions
