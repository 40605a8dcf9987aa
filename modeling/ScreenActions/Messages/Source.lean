import ScreenActions.Bundle
import ScreenActions.FileTree
import ScreenActions.Messages.Properties

/-! Sources of message bundles: families in memory, and families of files with a cache. -/

namespace ScreenActions

inductive PropertyError
  | notFound (resource locale : String)
  | unreadable (path : String)
  deriving DecidableEq, Repr

def PropertyError.message : PropertyError → String
  | .notFound resource locale =>
      "Resource bundle not found: " ++ resource ++ " (locale " ++ locale ++ ")"
  | .unreadable path =>
      "Failed to read properties file " ++ path ++ ": stream did not contain valid UTF-8"

namespace Messages

def fileSuffix : String := ".properties"

/-- The name of a resource without one suffix of its files. -/
def resourceName (resource : String) : String :=
  ((Text.stripTail? fileSuffix.toList resource.toList).map String.ofList).getD resource

def localeLabel : Option Locale → String
  | some l => l.tag
  | none => "none"

/-- Tags from the base, which is empty, to the most specific one. -/
def tags : Option Locale → List String
  | some l => "" :: l.candidates.reverse
  | none => [""]

def notFound (name : String) (locale : Option Locale) : PropertyError :=
  .notFound name (localeLabel locale)

end Messages

open Messages

/-- Where bundles come from; `ω` is what answering may change. -/
structure PropertySource (ω : Type) where
  bundle : String → Option Locale → ω → Except PropertyError Bundle × ω

namespace PropertySource

def message {ω : Type} (src : PropertySource ω) (resource key : String) (locale : Option Locale)
    (w : ω) : Except PropertyError (Option String) × ω :=
  let (answer, w) := src.bundle resource locale w
  (answer.map (·.get? key), w)

end PropertySource

/-- Messages by resource name, locale tag and key. -/
abbrev MemorySource := Keyed (Keyed (Keyed String))

namespace MemorySource

/-- Messages added to a resource; the base has the empty tag. -/
def insert (m : MemorySource) (resource : String) (tag : String) (messages : Keyed String) :
    MemorySource :=
  let name := resourceName resource
  let family := (Keyed.get? m name).getD []
  let layer := (Keyed.get? family tag).getD []
  Keyed.insert name (Keyed.insert tag (Keyed.extend layer messages) family) m

/-- The layers of a family from the base to the most specific tag, later ones over earlier ones. -/
def bundle (m : MemorySource) (resource : String) (locale : Option Locale) :
    Except PropertyError Bundle :=
  let name := resourceName resource
  match Keyed.get? m name with
  | none => .error (notFound name locale)
  | some family =>
      let layers := (tags locale).filterMap (Keyed.get? family)
      .ok ⟨name, locale, layers.foldl Keyed.extend []⟩

def source (ω : Type) (m : MemorySource) : PropertySource ω :=
  ⟨fun resource locale w => (m.bundle resource locale, w)⟩

end MemorySource

/-- Families of files under directories, of which the first that holds a file wins. -/
structure FileSource where
  roots : List String
  cacheSize : Nat
  deriving DecidableEq, Repr

/-- A bundle and the number of the load that made it. -/
structure LoadedBundle where
  serial : Nat
  bundle : Bundle
  deriving DecidableEq, Repr

/-- Loaded bundles under name and locale label, the most recently used first. -/
structure BundleCache where
  entries : List ((String × String) × LoadedBundle) := []
  loads : Nat := 0
  deriving DecidableEq, Repr

namespace BundleCache

/-- The entry of a key, which becomes the most recent one. -/
def use (c : BundleCache) (key : String × String) : Option (LoadedBundle × BundleCache) :=
  (c.entries.find? (·.1 == key)).map fun e =>
    (e.2, { c with entries := e :: c.entries.filter (·.1 != key) })

/-- A bundle loaded under a key; the least recent entries beyond the size are dropped. -/
def load (c : BundleCache) (size : Nat) (key : String × String) (b : Bundle) :
    LoadedBundle × BundleCache :=
  let loaded : LoadedBundle := ⟨c.loads, b⟩
  (loaded,
    { entries := ((key, loaded) :: c.entries.filter (·.1 != key)).take (max 1 size)
      loads := c.loads + 1 })

end BundleCache

namespace FileSource

def defaultCacheSize : Nat := 64

/-- The file of a name in the first root that has it. -/
def find? (src : FileSource) (files : FileTree) (name : String) : Option (String × FileContent) :=
  src.roots.findSome? fun root =>
    let path := FilePath.join root name
    ((files path).filter FileContent.isFile).map fun content => (path, content)

/-- File names of a family from the base to the most specific tag. -/
def fileNames (name : String) (locale : Option Locale) : List String :=
  let suffixes := match locale with
    | some l => "" :: l.candidates.reverse.map ("_" ++ ·)
    | none => [""]
  suffixes.map fun suffix => name ++ suffix ++ fileSuffix

/-- The messages of the files found, later ones over earlier ones, and whether there was one. -/
def gather : List (String × FileContent) → Except PropertyError (Keyed String)
  | [] => .ok []
  | (path, content) :: rest =>
      match content.text? with
      | none => .error (.unreadable path)
      | some s => (gather rest).map fun upper => Keyed.extend (Properties.parse s) upper

/-- A family of files merged for a locale, from the base to the most specific tag. -/
def load (src : FileSource) (files : FileTree) (name : String) (locale : Option Locale) :
    Except PropertyError Bundle :=
  let found := (fileNames name locale).filterMap (src.find? files)
  if found.isEmpty then .error (notFound name locale)
  else (gather found).map fun messages => ⟨name, locale, messages⟩

/-- The bundle of a resource, from the cache if it is there. Errors are not kept. -/
def request (src : FileSource) (files : FileTree) (resource : String) (locale : Option Locale)
    (cache : BundleCache) : Except PropertyError LoadedBundle × BundleCache :=
  let name := resourceName resource
  let key := (name, localeLabel locale)
  match cache.use key with
  | some (loaded, cache) => (.ok loaded, cache)
  | none =>
      match src.load files name locale with
      | .error e => (.error e, cache)
      | .ok b => let (loaded, cache) := cache.load src.cacheSize key b; (.ok loaded, cache)

def source (src : FileSource) (files : FileTree) : PropertySource BundleCache :=
  ⟨fun resource locale cache =>
    let (answer, cache) := src.request files resource locale cache
    (answer.map LoadedBundle.bundle, cache)⟩

end FileSource
end ScreenActions
