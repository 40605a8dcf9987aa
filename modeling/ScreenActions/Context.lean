import ScreenActions.FieldStore
import ScreenActions.Locale
import ScreenActions.Value.Text

/-! Layered contexts: reads search the layers from the top downward and then the global map, plain
writes go to the top layer. -/

namespace ScreenActions

/-- A top layer over others, the nearest first, and an optional global map below all layers. -/
structure Context where
  top : ValueMap := []
  below : List ValueMap := []
  global : Option ValueMap := none
  deriving Repr

namespace Context

/-- Names of fields with a meaning of their own. -/
def widgetTrailKey : String := "_WIDGETTRAIL_"
def localeKey : String := "locale"
def timeZoneKey : String := "timeZone"
def pageKey : String := "page"
def parametersKey : String := "parameters"

/-- The layers from the top downward. -/
def stack (c : Context) : List ValueMap := c.top :: c.below

/-- The layers from the bottom upward. -/
def layers (c : Context) : List ValueMap := c.stack.reverse

def depth (c : Context) : Nat := c.below.length + 1

def push (c : Context) : Context := { c with top := [], below := c.top :: c.below }

/-- The context without its top layer, and that layer; the last layer stays. -/
def pop (c : Context) : Context × Option ValueMap :=
  match c.below with
  | [] => (c, none)
  | next :: rest => ({ c with top := next, below := rest }, some c.top)

def get? (c : Context) (key : String) : Option Value :=
  (c.stack.findSome? (Keyed.get? · key)).or (c.global.bind (Keyed.get? · key))

def contains (c : Context) (key : String) : Bool := (c.get? key).isSome

def insert (c : Context) (key : String) (v : Value) : Context :=
  { c with top := Keyed.insert key v c.top }

def erase (c : Context) (key : String) : Context × Option Value :=
  ({ c with top := Keyed.erase key c.top }, Keyed.get? c.top key)

def extend (c : Context) (m : ValueMap) : Context := { c with top := Keyed.extend c.top m }

/-- The layers with a field rewritten in the first layer that has it. -/
def replaceIn (key : String) (v : Value) : List ValueMap → Option (List ValueMap)
  | [] => none
  | m :: rest =>
      if Keyed.contains m key then some (Keyed.insert key v m :: rest)
      else (replaceIn key v rest).map (m :: ·)

/-- A field rewritten where `get?` finds it. -/
def replace (c : Context) (key : String) (v : Value) : Context :=
  if Keyed.contains c.top key then { c with top := Keyed.insert key v c.top }
  else match replaceIn key v c.below with
    | some below => { c with below := below }
    | none =>
        match c.global with
        | some g =>
            if Keyed.contains g key then { c with global := some (Keyed.insert key v g) } else c
        | none => c

instance : FieldStore Context where
  lookup := get?
  store := insert
  replace := replace

/-- All visible fields, each with the value that a read finds. -/
def flatten (c : Context) : ValueMap := c.layers.foldl Keyed.extend (c.global.getD [])

/-- Names of the widgets around the one being prepared, outermost first. -/
def widgetTrail (c : Context) (heap : BundleHeap) : List String :=
  match c.get? widgetTrailKey with
  | some (.list items) => items.map (·.display heap)
  | _ => []

def setWidgetTrail (c : Context) (trail : List String) : Context :=
  c.insert widgetTrailKey (.list (trail.map .text))

def locale (c : Context) : Option Locale :=
  ((c.get? localeKey).bind Value.text?).bind Locale.ofTag?

def setLocale (c : Context) (l : Locale) : Context := c.insert localeKey (.text l.tag)

def timeZone (c : Context) : Option String := (c.get? timeZoneKey).bind Value.text?

end Context
end ScreenActions
