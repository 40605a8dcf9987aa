import ScreenActions.Number.Numeral
import ScreenActions.Text.Blank
import ScreenActions.Value.Basic

/-! Paths to fields: keys between points, `[i]` for an item of a list, `[]` to append one. -/

namespace ScreenActions

open Text

inductive PathSegment
  | key (name : String)
  | index (i : Nat)
  /-- Appends on writing and is never found on reading. -/
  | append
  deriving DecidableEq, Repr

def PathSegment.text : PathSegment → String
  | .key name => name
  | .index i => "[" ++ String.ofList (Number.naturalText i) ++ "]"
  | .append => "[]"

/-- A path as it is written, without blanks around it, and its segments. -/
structure FieldPath where
  text : String
  segments : List PathSegment
  deriving DecidableEq, Repr

namespace FieldPath

def isQuote (c : Char) : Bool := c == '"' || c == '\''

/-- A key without the quotes around it. -/
def unquote (s : List Char) : List Char :=
  ((s.dropWhile isQuote).reverse.dropWhile isQuote).reverse

/-- The segment between two brackets. -/
def bracketed (inner : List Char) : PathSegment :=
  let inner := trim inner
  if inner.isEmpty then .append
  else match Number.unsigned? Number.wordMax inner with
    | some i => .index i
    | none => .key (String.ofList (unquote inner))

/-- The key gathered so far, from last to first; an empty one is no segment. -/
def flush (key : List Char) : List PathSegment :=
  if key.isEmpty then [] else [.key (String.ofList key.reverse)]

mutual
/-- Segments of a text that continues the key gathered so far. -/
def readKey (key : List Char) : List Char → List PathSegment
  | [] => flush key
  | c :: s =>
      if c = '.' then flush key ++ readKey [] s
      else if c = '[' then readBracket key [] s
      else readKey (c :: key) s

/-- Segments of a text inside brackets. A bracket that is not closed belongs to the key. -/
def readBracket (key inner : List Char) : List Char → List PathSegment
  | [] => flush (inner ++ '[' :: key)
  | c :: s =>
      if c = ']' then flush key ++ bracketed inner.reverse :: readKey [] s
      else readBracket key (c :: inner) s
end

def ofText (text : String) : FieldPath :=
  let name := trim text.toList
  ⟨String.ofList name, readKey [] name⟩

def isEmpty (p : FieldPath) : Bool := p.text.isEmpty

/-- The key at which a path starts, and the rest. A path that starts with an index or an append
leads nowhere. -/
def root? (p : FieldPath) : Option (String × List PathSegment) :=
  match p.segments with
  | .key name :: rest => some (name, rest)
  | _ => none

end FieldPath

inductive PathError
  | emptyPath
  | notAContainer (path segment found : String)
  | indexOutOfBounds (path : String) (index length : Nat)
  deriving DecidableEq, Repr

def PathError.message : PathError → String
  | .emptyPath => "Field path is empty"
  | .notAContainer path segment found =>
      "Cannot write [" ++ path ++ "]: segment [" ++ segment ++ "] lands on a " ++ found ++
        ", not a container"
  | .indexOutOfBounds path index length =>
      "Cannot write [" ++ path ++ "]: index " ++ toString index ++
        " is past the end of a list of " ++ toString length

namespace Value

/-- The member that one segment selects. -/
def member? : Value → PathSegment → Option Value
  | .map entries, .key k => Keyed.get? entries k
  | .entity _ fields, .key k => Keyed.get? fields k
  | .list items, .index i => items[i]?
  | _, _ => none

def get? (v : Value) : List PathSegment → Option Value
  | [] => some v
  | seg :: rest => (v.member? seg).bind (get? · rest)

/-- As `get?`, and a key after a bundle map is the message of that key. -/
def resolve? (heap : BundleHeap) (v : Value) : List PathSegment → Option Value
  | [] => some v
  | seg :: rest =>
      match v, seg with
      | .bundle h, .key k =>
          if rest.isEmpty then (BundleHeap.message? heap h k).map .text else none
      | _, _ => (v.member? seg).bind (resolve? heap · rest)

/-- The container that a segment can be written into. -/
def emptyContainer : PathSegment → Value
  | .key _ => .map []
  | _ => .list []

/-- The value with `new` written at the segments, and whether that succeeded. Null becomes a
container on the way, and a failure leaves what was made before it. -/
def put (path : String) (new : Value) : List PathSegment → Value → Value × Except PathError Unit
  | [], _ => (new, .ok ())
  | seg :: rest, target =>
      match seg, if target.isNull then emptyContainer seg else target with
      | .key k, .map entries =>
          let (child, result) := put path new rest ((Keyed.get? entries k).getD .null)
          (.map (Keyed.insert k child entries), result)
      | .key k, .entity name fields =>
          let (child, result) := put path new rest ((Keyed.get? fields k).getD .null)
          (.entity name (Keyed.insert k child fields), result)
      | .index i, .list items =>
          if i ≤ items.length then
            let items := if i = items.length then items ++ [.null] else items
            let (child, result) := put path new rest (items[i]?.getD .null)
            (.list (items.set i child), result)
          else (.list items, .error (.indexOutOfBounds path i items.length))
      | .append, .list items =>
          let (child, result) := put path new rest .null
          (.list (items ++ [child]), result)
      | seg, found => (found, .error (.notAContainer path seg.text found.typeName))

end Value
end ScreenActions
