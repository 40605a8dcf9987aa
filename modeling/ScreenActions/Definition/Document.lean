import ScreenActions.Json.Basic

/-! Documents of either notation, as definitions and settings are read from them. -/

namespace ScreenActions

/-- What a scalar stands for. -/
inductive Scalar
  | null
  | bool (b : Bool)
  | int (n : Int)
  | float (x : Binary64)
  | text (s : String)
  /-- A number or a tagged scalar that no field can hold. -/
  | foreign
  deriving DecidableEq, Repr

/-- A scalar comes with the text that a field of text takes from it, if it may, with what it stands
for by itself, and with what it stands for where its tag does not count; a list says whether its
items may stand for the fields of a record. Members stand in the order in which they are written. -/
inductive Document
  | scalar (text : Option String) (value untagged : Scalar)
  | list (positional : Bool) (items : List Document)
  | record (members : List (Document × Document))
  deriving Inhabited, Repr

namespace Document

def untagged (text : Option String) (value : Scalar) : Document := .scalar text value value

mutual
/-- In JSON only a string gives a text, and an array may stand for a record. -/
def ofJson : Json → Document
  | .null => untagged none .null
  | .bool b => untagged none (.bool b)
  | .int n => untagged none (.int n)
  | .float x => untagged none (.float x)
  | .string s => untagged (some s) (.text s)
  | .array items => .list true (ofJsonItems items)
  | .object members => .record (ofJsonMembers members)

def ofJsonItems : List Json → List Document
  | [] => []
  | v :: vs => ofJson v :: ofJsonItems vs

def ofJsonMembers : List (String × Json) → List (Document × Document)
  | [] => []
  | (k, v) :: vs => (untagged (some k) (.text k), ofJson v) :: ofJsonMembers vs
end

def text? : Document → Option String
  | .scalar t _ _ => t
  | _ => none

def isNull : Document → Bool
  | .scalar _ .null .null => true
  | _ => false

/-- A scalar written with no character at all, where a collection may stand. -/
def isVoid : Document → Bool
  | .scalar (some "") _ .null => true
  | _ => false

/-- The items of a list. -/
def items? : Document → Option (List Document)
  | .list _ items => some items
  | d => if d.isVoid then some [] else none

/-- A member under a text. -/
def entry? (member : Document × Document) : Option (String × Document) :=
  member.1.text?.map fun k => (k, member.2)

/-- Members under texts. -/
def entries? : Document → Option (List (String × Document))
  | .record members => members.mapM entry?
  | d => if d.isVoid then some [] else none

/-- Values of the named fields, in the order of the names: a record gives each of them once at most
and may have other fields, a list may give them by position. -/
def fields? (names : List String) : Document → Option (List (Option Document))
  | .list positional items =>
      if positional && items.length ≤ names.length then
        some (items.map some ++ List.replicate (names.length - items.length) none)
      else none
  | d =>
      d.entries?.bind fun entries =>
        names.mapM fun name =>
          match (entries.filter (·.1 == name)).map Prod.snd with
          | [] => some none
          | [v] => some (some v)
          | _ => none

end Document
end ScreenActions
