import ScreenActions.Definition.Document
import ScreenActions.FileTree
import ScreenActions.Locale
import ScreenActions.Messages.Source
import ScreenActions.Yaml.Document

/-! Settings, as a YAML file gives them. -/

namespace ScreenActions

/-- Where message bundles are looked for. -/
structure PropertySettings where
  roots : List String := []
  cacheSize : Nat := FileSource.defaultCacheSize
  deriving DecidableEq, Repr

/-- What every context starts with. -/
structure ContextSettings where
  locale : Option String := none
  timeZone : Option String := none
  /-- Whether there is a global map. -/
  global : Bool := false
  deriving DecidableEq, Repr

structure RenderSettings where
  contentType : String := "application/pdf"
  errorTemplate : String := "component://common/widget/CommonScreens.xml#FoError"
  deriving DecidableEq, Repr

structure Config where
  properties : PropertySettings := {}
  context : ContextSettings := {}
  render : RenderSettings := {}
  /-- The file that the settings come from. -/
  path : Option String := none
  deriving DecidableEq, Repr

inductive ConfigError
  | unreadable
  | malformed
  | invalidValue (field value : String)
  deriving DecidableEq, Repr

def ConfigError.message : ConfigError → String
  | .unreadable => "Failed to read config file"
  | .malformed => "Failed to parse YAML"
  | .invalidValue field value => "Invalid value for " ++ field ++ ": " ++ value

namespace Document

/-- The text of a field that may be null. -/
def textOrNull? (d : Document) : Option (Option String) :=
  if d.isNull then some none else d.text?.map some

def bool? : Document → Option Bool
  | .scalar _ _ (.bool b) => some b
  | _ => none

/-- A natural number of one word, written without a minus sign. -/
def word? : Document → Option Nat
  | .scalar text _ (.int n) =>
      let minus := text.any fun t => Text.startsWith ['-'] t.toList
      if !minus && 0 ≤ n && n ≤ Number.wordMax then some n.toNat else none
  | _ => none

/-- A field, or a default where it is absent. -/
def orElse {α : Type} (default : α) (read : Document → Option α) : Option Document → Option α
  | some d => read d
  | none => some default

end Document

open Document

def PropertySettings.ofDocument? (d : Document) : Option PropertySettings := do
  match ← d.fields? ["roots", "cache_size"] with
  | [roots, cacheSize] => some {
      roots := ← orElse [] (fun d => d.items?.bind (·.mapM Document.text?)) roots
      cacheSize := ← orElse FileSource.defaultCacheSize word? cacheSize }
  | _ => none

def ContextSettings.ofDocument? (d : Document) : Option ContextSettings := do
  match ← d.fields? ["locale", "time_zone", "global"] with
  | [locale, timeZone, global] => some {
      locale := ← orElse none textOrNull? locale
      timeZone := ← orElse none textOrNull? timeZone
      global := ← orElse false bool? global }
  | _ => none

def RenderSettings.ofDocument? (d : Document) : Option RenderSettings := do
  let default : RenderSettings := {}
  match ← d.fields? ["default_content_type", "error_template"] with
  | [contentType, errorTemplate] => some {
      contentType := ← orElse default.contentType Document.text? contentType
      errorTemplate := ← orElse default.errorTemplate Document.text? errorTemplate }
  | _ => none

namespace Config

/-- Settings of a record in which every section and every field may be absent. -/
def ofDocument? (d : Document) : Option Config := do
  match ← d.fields? ["properties", "context", "render"] with
  | [properties, context, render] => some {
      properties := ← orElse {} PropertySettings.ofDocument? properties
      context := ← orElse {} ContextSettings.ofDocument? context
      render := ← orElse {} RenderSettings.ofDocument? render }
  | _ => none

def ofFile (files : FileTree) (path : String) : Except ConfigError Config :=
  match (files path).bind FileContent.text? with
  | none => .error .unreadable
  | some text =>
      match (Document.ofYaml? text).bind ofDocument? with
      | some c => .ok { c with path := some path }
      | none => .error .malformed

/-- The roots of message files, relative to the directory of the settings file. -/
def propertyRoots (c : Config) : List String :=
  c.properties.roots.map fun root =>
    match c.path with
    | some path => FilePath.join (FilePath.parent path) root
    | none => root

/-- The default locale; an empty tag is none. -/
def locale (c : Config) : Except ConfigError (Option Locale) :=
  match c.context.locale with
  | none => .ok none
  | some tag =>
      if tag.isEmpty then .ok none
      else match Locale.ofTag? tag with
        | some l => .ok (some l)
        | none => .error (.invalidValue "context.locale" tag)

end Config
end ScreenActions
