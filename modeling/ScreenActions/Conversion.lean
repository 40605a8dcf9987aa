import ScreenActions.Calendar.Pattern
import ScreenActions.Number.DecimalText
import ScreenActions.Value.Text

/-! Conversion of values to the declared types of fields. -/

namespace ScreenActions

open Number Text

inductive ConversionError
  | unsupported (typeName : String)
  | invalid (source target text : String)
  deriving DecidableEq, Repr

def ConversionError.message : ConversionError → String
  | .unsupported name => "Conversion to type [" ++ name ++ "] is not supported"
  | .invalid source target text =>
      "Cannot convert " ++ source ++ " [" ++ text ++ "] to " ++ target

inductive FieldType
  | text | object | boolean | integer | long | single | double | decimal
  | date | time | timestamp | list | map
  deriving DecidableEq, Repr

namespace FieldType

def ofName? : String → Option FieldType
  | "String" | "PlainString" => some .text
  | "Object" => some .object
  | "Boolean" => some .boolean
  | "Integer" => some .integer
  | "Long" => some .long
  | "Float" => some .single
  | "Double" => some .double
  | "BigDecimal" => some .decimal
  | "Date" => some .date
  | "Time" => some .time
  | "Timestamp" => some .timestamp
  | "List" => some .list
  | "Map" => some .map
  | _ => none

/-- The type of a name that may be qualified: what follows the last point counts. -/
def ofQualified? (name : String) : Option FieldType :=
  let short := match cutLast '.' name.toList with
    | some (_, short) => short
    | none => name.toList
  ofName? (String.ofList (trim short))

def name : FieldType → String
  | .text => "String"
  | .object => "Object"
  | .boolean => "Boolean"
  | .integer => "Integer"
  | .long => "Long"
  | .single => "Float"
  | .double => "Double"
  | .decimal => "BigDecimal"
  | .date => "Date"
  | .time => "Time"
  | .timestamp => "Timestamp"
  | .list => "List"
  | .map => "Map"

end FieldType

namespace Conversion

def boolean? : Value → Option Value
  | .bool b => some (.bool b)
  | .int n => some (.bool (n != 0))
  | .text s =>
      let word := lower (trimText s)
      if word = "true" || word = "y" then some (.bool true)
      else if word = "false" || word = "n" then some (.bool false)
      else none
  | _ => none

/-- A whole number of 64 bits; a double beyond them comes to the nearest one. -/
def whole? : Value → Option Int
  | .int n => some n
  | .float x => x.truncate?.map clampInt64
  | .decimal d =>
      let n := d.truncate
      if int64Min ≤ n ∧ n ≤ int64Max then some n else none
  | .text s => int64? (trim s.toList)
  | _ => none

def integer? (v : Value) : Option Value :=
  (whole? v).bind fun n => if int32Min ≤ n ∧ n ≤ int32Max then some (.int n) else none

def long? (v : Value) : Option Value := (whole? v).map .int

def number? : Value → Option Binary64
  | .float x => some x
  | .int n => some (Binary64.ofInt n)
  | .decimal d => some d.toBinary64
  | .text s => Binary64.ofText? (trim s.toList)
  | _ => none

def double? (v : Value) : Option Value := (number? v).map .float

def single? (v : Value) : Option Value :=
  (number? v).bind fun x => if x.isFinite && x.exceedsSingle then none else some (.float x)

def decimal? : Value → Option Value
  | .decimal d => some (.decimal d)
  | .int n => (Decimal.ofInt? n).map .decimal
  | .float x => (Decimal.ofBinary64? x).map .decimal
  | .text s => (Decimal.read? (trim s.toList)).map .decimal
  | _ => none

def date? : Value → Option Value
  | .date d => some (.date d)
  | .timestamp t => some (.date t.date)
  | .text s =>
      let s := trim s.toList
      ((Date.ofText? s).or ((Timestamp.ofText? s).map Timestamp.date)).map .date
  | _ => none

def time? : Value → Option Value
  | .time t => some (.time t)
  | .timestamp t => some (.time t.time)
  | .text s => (Time.ofText? (trim s.toList)).map .time
  | _ => none

def timestamp? : Value → Option Value
  | .timestamp t => some (.timestamp t)
  | .date d => some (.timestamp (Timestamp.atMidnight d))
  | .int n => (Timestamp.ofMillis? n).map .timestamp
  | .text s => (Timestamp.ofText? (trim s.toList)).map .timestamp
  | _ => none

/-- A text without the blanks and one pair of brackets around it. -/
def unwrap (left right : Char) (s : List Char) : List Char :=
  let s := trim s
  ((stripLead? [left] s).bind (stripTail? [right])).getD s

def trimmed (s : List Char) : String := String.ofList (trim s)

/-- Items between commas, or none at all in a blank text. -/
def listItems (s : List Char) : List Value :=
  let inner := unwrap '[' ']' s
  if isAllBlank inner then []
  else (splitAll (· == ',') inner).map fun item => .text (trimmed item)

def pair? (s : List Char) : Option (String × Value) :=
  (cutFirst '=' s).map fun (k, v) => (trimmed k, .text (trimmed v))

/-- Pairs between commas; blank pieces are skipped. -/
def mapEntries? (s : List Char) : Option ValueMap :=
  let pieces := (splitAll (· == ',') (unwrap '{' '}' s)).filter (!isAllBlank ·)
  (pieces.mapM pair?).map Keyed.ofEntries

def list? : Value → Option Value
  | .list items => some (.list items)
  | .text s => some (.list (listItems s.toList))
  | _ => none

def map? : Value → Option Value
  | .map entries => some (.map entries)
  | .entity _ fields => some (.map fields)
  | .text s => (mapEntries? s.toList).map .map
  | _ => none

/-- A value that is neither null nor a blank text in the given type. -/
def to? (heap : BundleHeap) (v : Value) : FieldType → Option Value
  | .text => some (.text (v.display heap))
  | .object => some v
  | .boolean => boolean? v
  | .integer => integer? v
  | .long => long? v
  | .single => single? v
  | .double => double? v
  | .decimal => decimal? v
  | .date => date? v
  | .time => time? v
  | .timestamp => timestamp? v
  | .list => list? v
  | .map => map? v

def isBlankValue : Value → Bool
  | .text s => isBlankText s
  | _ => false

end Conversion

/-- Null stays null for every type, a blank text becomes null for every type but texts and
objects; what remains must convert. -/
def Value.convert (heap : BundleHeap) (v : Value) (typeName : String) :
    Except ConversionError Value :=
  let type := FieldType.ofQualified? typeName
  if v.isNull then .ok .null
  else if type != some .text && type != some .object && Conversion.isBlankValue v then .ok .null
  else match type with
    | none => .error (.unsupported typeName)
    | some t =>
        match Conversion.to? heap v t with
        | some w => .ok w
        | none => .error (.invalid v.typeName t.name (v.display heap))

end ScreenActions
