import ScreenActions.Definition.Element
import ScreenActions.FileTree
import ScreenActions.Json.Reader
import ScreenActions.Yaml.Document

/-! Definitions of screens, and the files that hold them. -/

namespace ScreenActions

/-- The action section of a screen. -/
structure ScreenDefinition where
  name : String
  actions : List Element := []
  deriving Repr

namespace ScreenDefinition

/-- A record of a name and, if there are any, actions. -/
def ofDocument? (d : Document) : Option ScreenDefinition :=
  (d.fields? ["name", "actions"]).bind fun fields =>
    match fields with
    | [some name, actions] => do
        let name ← name.text?
        let actions ← match actions with
          | some d => d.items?.bind (·.mapM Element.ofDocument?)
          | none => some []
        some ⟨name, actions⟩
    | _ => none

def ofYaml (text : String) : Except DefinitionError ScreenDefinition :=
  match (Document.ofYaml? text).bind ofDocument? with
  | some d => .ok d
  | none => .error .malformedYaml

def ofJson (text : String) : Except DefinitionError ScreenDefinition :=
  match (Json.ofText? text).bind fun j => ofDocument? (Document.ofJson j) with
  | some d => .ok d
  | none => .error .malformedJson

/-- A file is JSON if its extension says so, and YAML otherwise. -/
def isJsonPath (path : String) : Bool :=
  (FilePath.extension? path).any fun e => Text.lower e == "json"

def ofFile (files : FileTree) (path : String) : Except DefinitionError ScreenDefinition :=
  match files path with
  | some (.text text) => if isJsonPath path then ofJson text else ofYaml text
  | _ => .error .unreadable

end ScreenDefinition
end ScreenActions
