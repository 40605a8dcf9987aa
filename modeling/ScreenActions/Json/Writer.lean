import ScreenActions.Text.Blank
import ScreenActions.Number.Shortest
import ScreenActions.Json.Basic

/-! Writing JSON documents, in one line or indented. -/

namespace ScreenActions.Json

open Number

def encodeChar (c : Char) : List Char :=
  if c = '"' then ['\\', '"']
  else if c = '\\' then ['\\', '\\']
  else if c = '\x08' then ['\\', 'b']
  else if c = '\x0c' then ['\\', 'f']
  else if c = '\n' then ['\\', 'n']
  else if c = '\r' then ['\\', 'r']
  else if c = '\t' then ['\\', 't']
  else if c.toNat < 0x20 then
    ['\\', 'u', '0', '0'] ++ Nat.toDigits 16 (c.toNat / 16) ++ Nat.toDigits 16 (c.toNat % 16)
  else [c]

def quoted (s : String) : String :=
  String.ofList ('"' :: s.toList.flatMap encodeChar ++ ['"'])

def scalarText : Json → String
  | .null => "null"
  | .bool b => if b then "true" else "false"
  | .int n => String.ofList (integerText n)
  | .float x => if x.isFinite then String.ofList x.scientificText else "null"
  | .string s => quoted s
  | _ => ""

mutual
/-- One line without blanks. -/
def text : Json → String
  | .array items => "[" ++ Text.join "," (textItems items) ++ "]"
  | .object members => "\x7b" ++ Text.join "," (textMembers members) ++ "\x7d"
  | v => scalarText v

def textItems : List Json → List String
  | [] => []
  | v :: vs => text v :: textItems vs

def textMembers : List (String × Json) → List String
  | [] => []
  | (k, v) :: vs => (quoted k ++ ":" ++ text v) :: textMembers vs
end

def indentation (depth : Nat) : String := String.ofList (List.replicate (2 * depth) ' ')

/-- Parts on lines of their own between two brackets. -/
def block (depth : Nat) (left right : String) (parts : List String) : String :=
  if parts.isEmpty then left ++ right
  else
    let inner := "\n" ++ indentation (depth + 1)
    left ++ inner ++ Text.join ("," ++ inner) parts ++ "\n" ++ indentation depth ++ right

mutual
/-- Members and items on lines of their own, two blanks deeper than what holds them. -/
def indented (depth : Nat) : Json → String
  | .array items => block depth "[" "]" (indentedItems (depth + 1) items)
  | .object members => block depth "\x7b" "\x7d" (indentedMembers (depth + 1) members)
  | v => scalarText v

def indentedItems (depth : Nat) : List Json → List String
  | [] => []
  | v :: vs => indented depth v :: indentedItems depth vs

def indentedMembers (depth : Nat) : List (String × Json) → List String
  | [] => []
  | (k, v) :: vs => (quoted k ++ ": " ++ indented depth v) :: indentedMembers depth vs
end

def prettyText (v : Json) : String := indented 0 v

end ScreenActions.Json
