import ScreenActions.Json.Basic
import ScreenActions.Value.Text

/-! Values read from JSON documents and written to them. -/

namespace ScreenActions.Value

/-- The member that marks an object as an entity. -/
def entityNameKey : String := "_entityName"

/-- An object as a map, or as an entity when its marker is a text. -/
def ofMembers (fields : ValueMap) : Value :=
  match Keyed.get? fields entityNameKey with
  | some (.text name) => .entity name (Keyed.erase entityNameKey fields)
  | _ => .map fields

mutual
/-- Integers of 64 bits are integers, other numbers are doubles. -/
def ofJson : Json → Value
  | .null => .null
  | .bool b => .bool b
  | .int n => if n ≤ Number.int64Max then .int n else .float (Binary64.ofInt n)
  | .float x => .float x
  | .string s => .text s
  | .array items => .list (ofJsonItems items)
  | .object members => ofMembers (Keyed.ofEntries (ofJsonMembers members))

def ofJsonItems : List Json → List Value
  | [] => []
  | v :: vs => ofJson v :: ofJsonItems vs

def ofJsonMembers : List (String × Json) → List (String × Value)
  | [] => []
  | (k, v) :: vs => (k, ofJson v) :: ofJsonMembers vs
end

mutual
/-- Decimals and calendar values become texts, bundle maps their messages; a number that is not
finite becomes null. -/
def toJson (heap : BundleHeap) : Value → Json
  | .null => .null
  | .bool b => .bool b
  | .int n => .int n
  | .float x => if x.isFinite then .float x else .null
  | .list items => .array (toJsonItems heap items)
  | .map entries => .object (toJsonEntries heap entries)
  | .entity name fields =>
      .object (Keyed.insert entityNameKey (.string name) (toJsonEntries heap fields))
  | .bundle h => .object (Keyed.mapValues Json.string (BundleHeap.stack heap h).flatten)
  | v => .string (scalarText heap v)

def toJsonItems (heap : BundleHeap) : List Value → List Json
  | [] => []
  | v :: vs => toJson heap v :: toJsonItems heap vs

def toJsonEntries (heap : BundleHeap) : List (String × Value) → List (String × Json)
  | [] => []
  | (k, v) :: vs => (k, toJson heap v) :: toJsonEntries heap vs
end

end ScreenActions.Value
