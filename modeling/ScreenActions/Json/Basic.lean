import ScreenActions.Number.Binary64

/-! JSON documents. -/

namespace ScreenActions

/-- Integers are those of 64 bits, signed or not; any other number is a double. Members stand in
the order in which they are written. -/
inductive Json
  | null
  | bool (b : Bool)
  | int (n : Int)
  | float (x : Binary64)
  | string (s : String)
  | array (items : List Json)
  | object (members : List (String × Json))
  deriving Inhabited, Repr

namespace Json

def strings (texts : List String) : Json := .array (texts.map .string)

def option (f : α → Json) : Option α → Json
  | some a => f a
  | none => .null

/-- The last member of a name. -/
def member? (name : String) : Json → Option Json
  | .object members => (members.reverse.find? (·.1 == name)).map Prod.snd
  | _ => none

end Json
end ScreenActions
