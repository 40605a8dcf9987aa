import ScreenActions.Keyed
import ScreenActions.Bundle
import ScreenActions.Number.Decimal
import ScreenActions.Calendar.Date

/-! Values of a screen context. -/

namespace ScreenActions

/-- Integers are those of 64 bits. The entries of a map and the fields of an entity are in
increasing key order. -/
inductive Value
  | null
  | bool (b : Bool)
  | int (n : Int)
  | float (x : Binary64)
  | decimal (d : Decimal)
  | text (s : String)
  | date (d : Date)
  | time (t : Time)
  | timestamp (t : Timestamp)
  | list (items : List Value)
  | map (entries : List (String × Value))
  | entity (name : String) (fields : List (String × Value))
  | bundle (handle : BundleHandle)
  deriving Inhabited, Repr

abbrev ValueMap := Keyed Value

namespace Value

def typeName : Value → String
  | .null => "null"
  | .bool _ => "Boolean"
  | .int _ => "Long"
  | .float _ => "Double"
  | .decimal _ => "BigDecimal"
  | .text _ => "String"
  | .date _ => "Date"
  | .time _ => "Time"
  | .timestamp _ => "Timestamp"
  | .list _ => "List"
  | .map _ => "Map"
  | .entity .. => "EntityValue"
  | .bundle _ => "BundleMap"

def isNull : Value → Bool
  | .null => true
  | _ => false

/-- Null, the empty text and the empty collections. -/
def isEmpty : Value → Bool
  | .null => true
  | .text s => s.isEmpty
  | .list items => items.isEmpty
  | .map entries => entries.isEmpty
  | _ => false

/-- There is nothing in the value: no text, no items and no entries. -/
def Void (v : Value) : Prop := v = .null ∨ v = .text "" ∨ v = .list [] ∨ v = .map []

theorem isNull_iff {v : Value} : v.isNull = true ↔ v = .null := by
  cases v <;> simp [isNull]

theorem isEmpty_iff {v : Value} : v.isEmpty = true ↔ v.Void := by
  cases v <;> simp [isEmpty, Void]

def text? : Value → Option String
  | .text s => some s
  | _ => none

def bool? : Value → Option Bool
  | .bool b => some b
  | _ => none

def int? : Value → Option Int
  | .int n => some n
  | _ => none

def list? : Value → Option (List Value)
  | .list items => some items
  | _ => none

def map? : Value → Option ValueMap
  | .map entries => some entries
  | _ => none

def entity? : Value → Option (String × ValueMap)
  | .entity name fields => some (name, fields)
  | _ => none

def bundle? : Value → Option BundleHandle
  | .bundle h => some h
  | _ => none

mutual
/-- Equality of values: numbers of one kind by their number, bundle maps by their handle. -/
def same : Value → Value → Bool
  | .null, .null => true
  | .bool a, .bool b => a == b
  | .int a, .int b => a == b
  | .float a, .float b => a.sameNumber b
  | .decimal a, .decimal b => a.sameNumber b
  | .text a, .text b => a == b
  | .date a, .date b => a == b
  | .time a, .time b => a == b
  | .timestamp a, .timestamp b => a == b
  | .list a, .list b => sameItems a b
  | .map a, .map b => sameEntries a b
  | .entity n a, .entity m b => n == m && sameEntries a b
  | .bundle a, .bundle b => a == b
  | _, _ => false

def sameItems : List Value → List Value → Bool
  | [], [] => true
  | a :: as, b :: bs => same a b && sameItems as bs
  | _, _ => false

def sameEntries : List (String × Value) → List (String × Value) → Bool
  | [], [] => true
  | (k, a) :: as, (l, b) :: bs => k == l && same a b && sameEntries as bs
  | _, _ => false
end

end Value
end ScreenActions
