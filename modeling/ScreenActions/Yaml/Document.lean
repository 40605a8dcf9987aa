import ScreenActions.Definition.Document
import ScreenActions.Number.Shortest
import ScreenActions.Text.Blank
import ScreenActions.Yaml.Node

/-! What YAML documents hold: plain scalars may be null, truth values or numbers. -/

namespace ScreenActions.Yaml

open Number Text

def isNullWord (s : List Char) : Bool :=
  ["null", "Null", "NULL", "~"].contains (String.ofList s)

def boolOfWord? (s : List Char) : Option Bool :=
  if ["true", "True", "TRUE"].contains (String.ofList s) then some true
  else if ["false", "False", "FALSE"].contains (String.ofList s) then some false
  else none

/-- What follows one sign, if there is one. -/
def unsign : List Char → List Char
  | '+' :: s => s
  | '-' :: s => s
  | s => s

/-- Digits after a leading zero are no number. -/
def isZeroPadded (s : List Char) : Bool :=
  match unsign s with
  | '0' :: d :: ds => (d :: ds).all isDigit
  | _ => false

/-- Digits of a radix, without a sign. -/
def radixDigits? (radix : Nat) (s : List Char) : Option Nat :=
  if s.head? == some '+' then none else radix? radix s

/-- A number in digits of a radix other than ten. -/
def ofRadix? : List Char → Option Nat
  | '0' :: 'x' :: s => radixDigits? 16 s
  | '0' :: 'o' :: s => radixDigits? 8 s
  | '0' :: 'b' :: s => radixDigits? 2 s
  | _ => none

/-- An integer of 128 bits, with or without a sign. -/
def integerOf? (s : List Char) : Option Int :=
  let n? : Option Int := match s with
    | '-' :: r =>
        ((ofRadix? r).or (if isZeroPadded s then none else natural? r)).map fun n => -(n : Int)
    | '+' :: r => ((ofRadix? r).or (if isZeroPadded s then none else natural? r)).map Int.ofNat
    | r => ((ofRadix? r).or (if isZeroPadded s then none else natural? r)).map Int.ofNat
  n?.filter fun n => -(twos 127 : Int) ≤ n && n < twos 128

/-- Integers of more than 64 bits can be read by no field. -/
def integerScalar (n : Int) : Scalar :=
  if int64Min ≤ n && n ≤ wordMax then .int n else .foreign

/-- A finite double in decimal digits, or one of the names of the others. -/
def floatOf? (s : List Char) : Option Binary64 :=
  let (plus, r) := match s with
    | '+' :: r => (true, r)
    | r => (false, r)
  if plus && (r.head? == some '+' || r.head? == some '-') then none
  else if [".inf", ".Inf", ".INF"].contains (String.ofList r) then some (.infinite false)
  else if ["-.inf", "-.Inf", "-.INF"].contains (String.ofList s) then some (.infinite true)
  else if [".nan", ".NaN", ".NAN"].contains (String.ofList s) then some .nan
  else (Binary64.ofText? r).filter fun x => match x with
    | .finite .. => true
    | _ => false

/-- What a plain scalar stands for. -/
def plainScalar (s : List Char) : Scalar :=
  if s.isEmpty || isNullWord s then .null
  else match boolOfWord? s with
    | some b => .bool b
    | none =>
        match integerOf? s with
        | some n => integerScalar n
        | none =>
            match if isZeroPadded s then none else floatOf? s with
            | some x => .float x
            | none => .text (String.ofList s)

/-- What a scalar with one of the tags of the core schema stands for. A tag of the document's own
kind makes it foreign; any other makes it a text. -/
def taggedScalar (tag : String) (text : List Char) : Scalar :=
  let known (name : String) : Bool := tag == "tag:yaml.org,2002:" ++ name
  if known "bool" then ((boolOfWord? text).map Scalar.bool).getD .foreign
  else if known "int" then ((integerOf? text).map integerScalar).getD .foreign
  else if known "float" then ((floatOf? text).map Scalar.float).getD .foreign
  else if known "null" then if isNullWord text then .null else .foreign
  else if startsWith ['!'] tag.toList then .foreign
  else .text (String.ofList text)

/-- A scalar by its form alone. -/
def untaggedScalar (text : String) (plain : Bool) : Scalar :=
  if plain then plainScalar text.toList else .text text

def scalarValue (text : String) (plain : Bool) : Option String → Scalar
  | some tag => taggedScalar tag text.toList
  | none => untaggedScalar text plain

/-- Collections nest at most this deep. -/
def maxNesting : Nat := 128

namespace Node

/-- The node behind an alias. -/
def target (nodes : List (Nat × Node)) : Node → Node
  | .alias n => (nodes.lookup n).getD .empty
  | node => node

/-- The content of a node with its aliases followed. Collections nested more than `depth` deep are
foreign. -/
def document (nodes : List (Nat × Node)) (depth : Nat) (node : Node) : Document :=
  match node.target nodes, depth with
  | .scalar text plain tag, _ =>
      .scalar (some text) (scalarValue text plain tag) (untaggedScalar text plain)
  | .list items, depth + 1 => .list false (items.map (document nodes depth))
  | .record members, depth + 1 =>
      .record (members.map fun m => (document nodes depth m.1, document nodes depth m.2))
  | _, _ => Document.untagged none .foreign

end Node
end Yaml

/-- The document that a YAML text holds. -/
def Document.ofYaml? (text : String) : Option Document :=
  (Yaml.Node.ofText? text).map fun (root, nodes) => root.document nodes Yaml.maxNesting

end ScreenActions
